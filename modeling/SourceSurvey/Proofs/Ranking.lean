import Mathlib.Data.List.Basic

/-!
Items by a key, the highest first and those with the same key in the order in which they came. The
items above a threshold are ranked as they are among all others, so each such ranking is a beginning
of the whole one.
-/

namespace SourceSurvey

variable {α : Type} (key : α → Nat)

/-- Items with the highest key first. Items with the same key stay in order. -/
def ranked (items : List α) : List α := items.mergeSort fun a b => key b ≤ key a

/-- Keys do not rise along the list. -/
def Falling (items : List α) : Prop := items.Pairwise fun a b => key b ≤ key a

theorem ranked_perm (items : List α) : (ranked key items).Perm items := List.mergeSort_perm _ _

/-- A ranked list falls from the highest key to the lowest. -/
theorem falling_ranked (items : List α) : Falling key (ranked key items) := by
  have hSorted : (ranked key items).Pairwise fun a b => decide (key b ≤ key a) = true :=
    List.pairwise_mergeSort (by simp only [decide_eq_true_eq]; omega)
      (by simp only [Bool.or_eq_true, decide_eq_true_eq]; omega) items
  exact hSorted.imp of_decide_eq_true

/-- Among the items with one key nothing is moved. -/
theorem filter_ranked (items : List α) (n : Nat) :
    (ranked key items).filter (key · = n) = items.filter (key · = n) := by
  have hSorted : (items.filter (key · = n)).Pairwise fun a b => decide (key b ≤ key a) = true := by
    refine List.pairwise_of_forall_mem_list fun a hA b hB => ?_
    have hA := of_decide_eq_true (List.mem_filter.1 hA).2
    have hB := of_decide_eq_true (List.mem_filter.1 hB).2
    exact decide_eq_true (by omega)
  have hKept : (items.filter (key · = n)).Sublist (ranked key items) :=
    List.sublist_mergeSort (by simp only [decide_eq_true_eq]; omega)
      (by simp only [Bool.or_eq_true, decide_eq_true_eq]; omega) hSorted List.filter_sublist
  have hInside := hKept.filter (key · = n)
  rw [List.filter_filter] at hInside
  simp only [Bool.and_self] at hInside
  exact (hInside.eq_of_length ((ranked_perm key items).filter _).length_eq.symm).symm

/-- Among the items with one key the order stays what it was. -/
theorem pairwise_ranked {r : α → α → Prop} {items : List α} (h : items.Pairwise r) :
    (ranked key items).Pairwise fun a b => key b < key a ∨ key a = key b ∧ r a b := by
  rw [List.pairwise_iff_forall_sublist]
  intro a b hPair
  have hFalls : key b ≤ key a := List.pairwise_iff_forall_sublist.1 (falling_ranked key items) hPair
  rcases Nat.lt_or_eq_of_le hFalls with hLess | hSame
  · exact .inl hLess
  · have hBoth := hPair.filter (key · = key a)
    rw [filter_ranked] at hBoth
    simp only [List.filter_cons, hSame, decide_true, if_true, List.filter_nil] at hBoth
    exact .inr ⟨hSame.symm, List.pairwise_iff_forall_sublist.1 h (hBoth.trans List.filter_sublist)⟩

variable {key} {xs ys : List α}

theorem Falling.tail {x : α} (h : Falling key (x :: xs)) : Falling key xs :=
  (List.pairwise_cons.1 h).2

theorem Falling.le_head {x y : α} (h : Falling key (x :: xs)) (hY : y ∈ x :: xs) :
    key y ≤ key x := by
  rcases List.mem_cons.1 hY with rfl | hTail
  · exact Nat.le_refl _
  · exact (List.pairwise_cons.1 h).1 y hTail

/-- Lists that agree for each value of a key have the same items. -/
theorem mem_iff_of_filter_eq (h : ∀ n, xs.filter (key · = n) = ys.filter (key · = n)) {a : α} :
    a ∈ xs ↔ a ∈ ys := by
  have hSame : a ∈ xs.filter (key · = key a) ↔ a ∈ ys.filter (key · = key a) := by rw [h]
  simpa using hSame

/-- A list whose keys do not rise is settled by its items of each key. -/
theorem Falling.eq_of_filter_eq (hXs : Falling key xs) (hYs : Falling key ys)
    (h : ∀ n, xs.filter (key · = n) = ys.filter (key · = n)) : xs = ys := by
  induction xs generalizing ys with
  | nil =>
      refine (List.eq_nil_iff_forall_not_mem.2 fun a hA => ?_).symm
      exact absurd ((mem_iff_of_filter_eq h).2 hA) List.not_mem_nil
  | cons x xs ih =>
      have hFirst : x ∈ ys := (mem_iff_of_filter_eq h).1 List.mem_cons_self
      obtain ⟨y, ys, rfl⟩ := List.exists_cons_of_ne_nil (List.ne_nil_of_mem hFirst)
      have hKey : key x = key y :=
        Nat.le_antisymm (hYs.le_head hFirst)
          (hXs.le_head ((mem_iff_of_filter_eq h).2 List.mem_cons_self))
      have hHead := h (key y)
      simp only [List.filter_cons, hKey, decide_true, if_true, List.cons.injEq] at hHead
      obtain ⟨rfl, _⟩ := hHead
      rw [ih hXs.tail hYs.tail fun n => ?_]
      have hBoth := h n
      simp only [List.filter_cons] at hBoth
      split at hBoth
      · exact (List.cons.inj hBoth).2
      · exact hBoth

/-- What is left out is left out of the ranking. -/
theorem ranked_filter (p : α → Bool) (items : List α) :
    ranked key (items.filter p) = (ranked key items).filter p := by
  refine (falling_ranked key _).eq_of_filter_eq ((falling_ranked key items).filter p) fun n => ?_
  rw [filter_ranked, List.filter_comm, ← filter_ranked, List.filter_comm]

/-- The items above a threshold come first. -/
theorem Falling.filter_eq_take (h : Falling key xs) (threshold : Nat) :
    xs.filter (threshold < key ·) = xs.take (xs.countP (threshold < key ·)) := by
  induction xs with
  | nil => rfl
  | cons x xs ih =>
      rw [List.filter_cons, List.countP_cons]
      split
      · rw [ih h.tail, List.take_succ_cons]
      · rename_i hBelow
        have hNone : ∀ a ∈ xs, ¬decide (threshold < key a) = true := by
          intro a hA
          have hLess := h.le_head (List.mem_cons_of_mem x hA)
          simp only [decide_eq_true_eq] at hBelow ⊢
          omega
        rw [List.filter_eq_nil_iff.2 hNone, List.countP_eq_zero.2 hNone]
        rfl

/-- The ranking of the items above a threshold is the beginning of the ranking of all items. -/
theorem ranked_above (items : List α) (threshold : Nat) :
    ranked key (items.filter (threshold < key ·)) =
      (ranked key items).take (items.countP (threshold < key ·)) := by
  rw [ranked_filter, (falling_ranked key items).filter_eq_take, (ranked_perm key items).countP_eq]

end SourceSurvey
