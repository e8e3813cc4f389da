/-!
Computations that may fail, one after the other. A list of them succeeds if each of them does, and
fails as the first one that fails.
-/

namespace SourceSurvey.Except

variable {ε ε' α β : Type}

/-- Two steps succeed just if the first does and the second does with its result. -/
theorem bind_eq_ok_iff {x : Except ε α} {f : α → Except ε β} {b : β} :
    (x >>= f) = .ok b ↔ ∃ a, x = .ok a ∧ f a = .ok b := by
  cases x <;> simp [bind, Except.bind]

/-- Two steps fail when either does, and the failure is that of the first that does. -/
theorem bind_eq_error_iff {x : Except ε α} {f : α → Except ε β} {e : ε} :
    (x >>= f) = .error e ↔ x = .error e ∨ ∃ a, x = .ok a ∧ f a = .error e := by
  cases x <;> simp [bind, Except.bind]

theorem map_eq_ok_iff {x : Except ε α} {f : α → β} {b : β} :
    f <$> x = .ok b ↔ ∃ a, x = .ok a ∧ f a = b := by
  cases x <;> simp [Functor.map, Except.map]

theorem mapError_eq_ok_iff {x : Except ε α} {f : ε → ε'} {a : α} :
    x.mapError f = .ok a ↔ x = .ok a := by
  constructor
  · intro h
    cases x with
    | ok b => exact congrArg Except.ok (Except.ok.inj h)
    | error cause => cases h
  · intro h
    subst h
    rfl

theorem mapError_eq_error_iff {x : Except ε α} {f : ε → ε'} {e : ε'} :
    x.mapError f = .error e ↔ ∃ cause, x = .error cause ∧ f cause = e := by
  constructor
  · intro h
    cases x with
    | ok a => cases h
    | error cause => exact ⟨cause, rfl, Except.error.inj h⟩
  · intro h
    obtain ⟨cause, rfl, rfl⟩ := h
    rfl

/-- A check of a list succeeds just if it does for every item. -/
theorem forM_eq_ok_iff {l : List α} {f : α → Except ε Unit} :
    l.forM f = .ok () ↔ ∀ x ∈ l, f x = .ok () := by
  induction l with
  | nil => simp [List.forM, pure, Except.pure]
  | cons x l ih =>
      have hCons : (x :: l).forM f = f x >>= fun _ => l.forM f := rfl
      rw [hCons, bind_eq_ok_iff, List.forall_mem_cons, ← ih]
      constructor
      · intro h
        obtain ⟨_, hHead, hRest⟩ := h
        exact ⟨hHead, hRest⟩
      · intro h
        obtain ⟨hHead, hRest⟩ := h
        exact ⟨(), hHead, hRest⟩

theorem exists_of_forM_eq_error {l : List α} {f : α → Except ε Unit} {e : ε}
    (h : l.forM f = .error e) : ∃ x ∈ l, f x = .error e := by
  induction l with
  | nil => cases h
  | cons x l ih =>
      have hCons : (x :: l).forM f = f x >>= fun _ => l.forM f := rfl
      rw [hCons, bind_eq_error_iff] at h
      rcases h with hHead | ⟨_, _, hRest⟩
      · exact ⟨x, List.mem_cons_self, hHead⟩
      · obtain ⟨y, hMem, hY⟩ := ih hRest
        exact ⟨y, List.mem_cons_of_mem _ hMem, hY⟩

/-- A list can be converted just if every item can. -/
theorem exists_mapM_eq_ok_iff {l : List α} {f : α → Except ε β} :
    (∃ ys, l.mapM f = .ok ys) ↔ ∀ x ∈ l, ∃ y, f x = .ok y := by
  induction l with
  | nil => simp [pure, Except.pure]
  | cons x l ih =>
      simp only [List.mapM_cons, bind_eq_ok_iff, List.forall_mem_cons, ← ih]
      constructor
      · intro h
        obtain ⟨_, y, hHead, ys, hRest, _⟩ := h
        exact ⟨⟨y, hHead⟩, ys, hRest⟩
      · intro h
        obtain ⟨⟨y, hHead⟩, ys, hRest⟩ := h
        exact ⟨y :: ys, y, hHead, ys, hRest, rfl⟩

/-- Each result of a conversion comes from an item. -/
theorem exists_of_mem_of_mapM_eq_ok {l : List α} {f : α → Except ε β} {ys : List β}
    (h : l.mapM f = .ok ys) {y : β} (hMem : y ∈ ys) : ∃ x ∈ l, f x = .ok y := by
  induction l generalizing ys with
  | nil =>
      cases h
      cases hMem
  | cons x l ih =>
      simp only [List.mapM_cons, bind_eq_ok_iff] at h
      obtain ⟨z, hHead, zs, hRest, hPure⟩ := h
      cases hPure
      rcases List.mem_cons.1 hMem with rfl | hMem
      · exact ⟨x, List.mem_cons_self, hHead⟩
      · obtain ⟨w, hW, hY⟩ := ih hRest hMem
        exact ⟨w, List.mem_cons_of_mem _ hW, hY⟩

theorem mem_of_mapM_eq_ok {l : List α} {f : α → Except ε β} {ys : List β}
    (h : l.mapM f = .ok ys) {x : α} {y : β} (hMem : x ∈ l) (hY : f x = .ok y) : y ∈ ys := by
  induction l generalizing ys with
  | nil => cases hMem
  | cons z l ih =>
      simp only [List.mapM_cons, bind_eq_ok_iff] at h
      obtain ⟨w, hHead, zs, hRest, hPure⟩ := h
      cases hPure
      rcases List.mem_cons.1 hMem with rfl | hMem
      · cases hHead.symm.trans hY
        exact List.mem_cons_self
      · exact List.mem_cons_of_mem _ (ih hRest hMem)

/-- The failure of a conversion is that of an item. -/
theorem exists_of_mapM_eq_error {l : List α} {f : α → Except ε β} {e : ε}
    (h : l.mapM f = .error e) : ∃ x ∈ l, f x = .error e := by
  induction l with
  | nil => cases h
  | cons x l ih =>
      simp only [List.mapM_cons, bind_eq_error_iff] at h
      rcases h with hHead | ⟨_, _, hRest | ⟨_, _, hPure⟩⟩
      · exact ⟨x, List.mem_cons_self, hHead⟩
      · obtain ⟨y, hMem, hY⟩ := ih hRest
        exact ⟨y, List.mem_cons_of_mem _ hMem, hY⟩
      · cases hPure

/-- What every step of a fold keeps holds of its result. -/
theorem foldlM_invariant {l : List α} {f : β → α → Except ε β} {p : β → Prop}
    (hStep : ∀ x ∈ l, ∀ {b c}, p b → f b x = .ok c → p c) {b c : β} (hStart : p b)
    (h : l.foldlM f b = .ok c) : p c := by
  induction l generalizing b with
  | nil =>
      cases h
      exact hStart
  | cons x l ih =>
      simp only [List.foldlM_cons, bind_eq_ok_iff] at h
      obtain ⟨d, hHead, hRest⟩ := h
      exact ih (fun y hY => hStep y (List.mem_cons_of_mem x hY))
        (hStep x List.mem_cons_self hStart hHead) hRest

theorem exists_of_foldlM_eq_error {l : List α} {f : β → α → Except ε β} {b : β} {e : ε}
    (h : l.foldlM f b = .error e) : ∃ x ∈ l, ∃ c, f c x = .error e := by
  induction l generalizing b with
  | nil => cases h
  | cons x l ih =>
      simp only [List.foldlM_cons, bind_eq_error_iff] at h
      rcases h with hHead | ⟨_, _, hRest⟩
      · exact ⟨x, List.mem_cons_self, b, hHead⟩
      · obtain ⟨y, hMem, hY⟩ := ih hRest
        exact ⟨y, List.mem_cons_of_mem _ hMem, hY⟩

/-- A fold whose steps succeed or fail whatever has been gathered. -/
theorem exists_foldlM_eq_ok_iff {l : List α} {f : β → α → Except ε β} {ok : α → Prop}
    (hStep : ∀ b x, (∃ c, f b x = .ok c) ↔ ok x) (b : β) :
    (∃ c, l.foldlM f b = .ok c) ↔ ∀ x ∈ l, ok x := by
  induction l generalizing b with
  | nil => simp [pure, Except.pure]
  | cons x l ih =>
      simp only [List.foldlM_cons, bind_eq_ok_iff, List.forall_mem_cons, ← hStep b x]
      constructor
      · intro h
        obtain ⟨c, d, hHead, hRest⟩ := h
        exact ⟨⟨d, hHead⟩, (ih d).1 ⟨c, hRest⟩⟩
      · intro h
        obtain ⟨⟨d, hHead⟩, hRest⟩ := h
        obtain ⟨c, hC⟩ := (ih d).2 hRest
        exact ⟨c, d, hHead, hC⟩

end SourceSurvey.Except
