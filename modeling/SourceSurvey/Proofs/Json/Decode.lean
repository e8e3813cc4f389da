import SourceSurvey.Json.Decode
import SourceSurvey.Json.Encode
import SourceSurvey.Proofs.Dictionary
import SourceSurvey.Proofs.Except
import SourceSurvey.Proofs.Json.Parser

/-!
Decoders that undo encoders. Whether they do is shown for each kind of value once, from whether
they do for its parts, and for records from whether they do for the fields.
-/

namespace SourceSurvey.Json

/-- What is written can be read, and gives what has been written. Types hold more than the format
of their parts does; `Fits` tells the values that have a written form, and nothing else is read. -/
structure Faithful {α : Type} (write : α → Json) (read : Decoder α) (Fits : α → Prop) : Prop where
  readable : ∀ {a}, Fits a → (write a).Readable
  read_write : ∀ {a}, Fits a → read (write a) = .ok a
  fits : ∀ {j a}, read j = .ok a → Fits a

section Texts

variable {α : Type} {write : α → Json} {decoder : Origin → Decoder α} {Fits : α → Prop}

/-- A text without errors is decoded by its value. -/
theorem decodeText_none_eq_ok_iff {j : Json} {a : α} :
    decodeText decoder (j, none) = .ok a ↔ decoder .text j = .ok a := by
  simp only [decodeText, Except.bind_eq_ok_iff, pure, Except.pure, Except.ok.injEq,
    exists_eq_right]

/-- No text is read as a value that has no written form. -/
theorem fits_of_decodeText (h : Faithful write (decoder .text) Fits) {text : List Char} {a : α}
    (hText : decodeText decoder (Json.read text) = .ok a) : Fits a := by
  obtain ⟨b, hRead, hEnd⟩ := Except.bind_eq_ok_iff.1 hText
  split at hEnd
  · cases hEnd
  · cases hEnd
    exact h.fits hRead

/-- What is written on one line can be read. -/
theorem decodeText_compact (h : Faithful write (decoder .text) Fits) {a : α} (hFits : Fits a) :
    decodeText decoder (Json.read (write a).compact.toList) = .ok a := by
  rw [read_compact (h.readable hFits), decodeText_none_eq_ok_iff]
  exact h.read_write hFits

/-- What is written with a line for every item can be read. -/
theorem decodeText_pretty (h : Faithful write (decoder .text) Fits) {a : α} (hFits : Fits a) :
    decodeText decoder (Json.read (write a).pretty.toList) = .ok a := by
  rw [read_pretty (h.readable hFits), decodeText_none_eq_ok_iff]
  exact h.read_write hFits

end Texts

theorem not_mismatch_eq_ok {α : Type} {expected : String} {j : Json} {a : α} :
    mismatch expected j ≠ .ok a := by
  intro h
  obtain ⟨_, _, hThrow⟩ := Except.bind_eq_ok_iff.1 h
  cases hThrow

/-- A dictionary is what comes of putting its entries in one after the other. -/
theorem foldlM_entries {α γ : Type} (d : Dictionary α) {write : String × α → γ}
    {step : Dictionary α → γ → Except DecodeError (Dictionary α)}
    (hStep : ∀ c, ∀ e ∈ d.entries, step c (write e) = .ok (c.insert e.1 e.2)) :
    (d.entries.map write).foldlM step ∅ = .ok d := by
  have hFold : ∀ (entries : List (String × α)) (start : Dictionary α),
      (∀ c, ∀ e ∈ entries, step c (write e) = .ok (c.insert e.1 e.2)) →
      (entries.map write).foldlM step start =
        .ok (entries.foldl (fun d e => d.insert e.1 e.2) start) := by
    intro entries
    induction entries with
    | nil => exact fun _ _ => rfl
    | cons e entries ih =>
        intro start hSteps
        simp only [List.map_cons, List.foldlM_cons, List.foldl_cons,
          hSteps start e List.mem_cons_self]
        exact ih _ fun c e he => hSteps c e (List.mem_cons_of_mem _ he)
  rw [hFold d.entries ∅ hStep, d.foldl_insert_entries]

namespace Faithful

variable {α : Type} {write : α → Json} {read : Decoder α} {Fits : α → Prop}

/-- The values with a written form can be told in other words. -/
theorem congr {Fits' : α → Prop} (h : Faithful write read Fits) (hIff : ∀ a, Fits a ↔ Fits' a) :
    Faithful write read Fits' := by
  rwa [← funext fun a => propext (hIff a)]

theorem string : Faithful .str Decoder.string fun _ => True where
  readable := fun _ => trivial
  read_write := fun _ => rfl
  fits := fun _ => trivial

theorem bool : Faithful .bool Decoder.bool fun _ => True where
  readable := fun _ => trivial
  read_write := fun _ => rfl
  fits := fun _ => trivial

/-- Numbers are written and read up to a limit, which words must be able to hold. -/
theorem natural {limit : Nat} (hLimit : limit ≤ Parser.wordLimit) (expected : String) :
    Faithful ofNat (Decoder.natural limit expected) (· < limit) where
  readable := by
    intro n hn
    exact ⟨Int.natCast_nonneg n, Int.ofNat_lt.2 (Nat.lt_of_lt_of_le hn hLimit)⟩
  read_write := by
    intro n hn
    simp [ofNat, Decoder.natural, hn]
  fits := by
    intro j n h
    cases j with
    | int m =>
        simp only [Decoder.natural] at h
        split at h
        · cases h
          omega
        · cases h
    | _ => exact absurd h not_mismatch_eq_ok

/-- A list can be read back if all items can. -/
theorem list (h : Faithful write read Fits) :
    Faithful (fun as => .arr (as.map write)) (Decoder.list read) fun as => ∀ a ∈ as, Fits a where
  readable := by
    intro as hFits
    refine readableItems_iff.2 ?_
    simp only [List.mem_map]
    rintro _ ⟨a, ha, rfl⟩
    exact h.readable (hFits a ha)
  read_write := by
    intro as hFits
    simp only [Decoder.list]
    induction as with
    | nil => rfl
    | cons a as ih =>
        rw [List.forall_mem_cons] at hFits
        simp [h.read_write hFits.1, ih hFits.2, bind, Except.bind, pure, Except.pure]
  fits := by
    intro j as hRead a ha
    cases j with
    | arr items =>
        obtain ⟨item, _, hItem⟩ := Except.exists_of_mem_of_mapM_eq_ok hRead ha
        exact h.fits hItem
    | _ => exact absurd hRead not_mismatch_eq_ok

theorem strings : Faithful ofStrings (Decoder.list Decoder.string) fun _ => True :=
  string.list.congr fun _ => by simp

/-- Nothing is written as the null value, so it must not be how something is written. -/
theorem option (h : Faithful write read Fits) (hNull : ∀ a, write a ≠ .null) :
    Faithful (fun o => (o.map write).getD .null) (Decoder.option read)
      fun o => ∀ a ∈ o, Fits a where
  readable := by
    intro o hFits
    cases o with
    | none => trivial
    | some a => exact h.readable (hFits a rfl)
  read_write := by
    intro o hFits
    cases o with
    | none => rfl
    | some a =>
        have hRead := h.read_write (hFits a rfl)
        simp only [Option.map_some, Option.getD_some, Decoder.option]
        split
        · rename_i hWritten
          exact absurd hWritten (hNull a)
        · rw [hRead]
          rfl
  fits := by
    intro j o hRead a ha
    simp only [Decoder.option] at hRead
    split at hRead
    · cases hRead
      cases ha
    · obtain ⟨b, hValue, rfl⟩ := Except.map_eq_ok_iff.1 hRead
      cases ha
      exact h.fits hValue

/-- A dictionary can be read back if all values can: keys are written as they are, in order. -/
theorem dictionary (h : Faithful write read Fits) :
    Faithful (ofDictionary write) (Decoder.dictionary read) fun d => ∀ e ∈ d.entries, Fits e.2 where
  readable := by
    intro d hFits
    refine readableMembers_iff.2 ?_
    simp only [List.mem_map]
    rintro _ ⟨e, he, rfl⟩
    exact h.readable (hFits e he)
  read_write := by
    intro d hFits
    apply foldlM_entries d
    intro c e he
    simp only [h.read_write (hFits e he)]
    rfl
  fits := by
    intro j d hRead
    cases j with
    | obj members =>
        refine Except.foldlM_invariant (p := fun d => ∀ e ∈ d.entries, Fits e.2) ?_ ?_ hRead
        · intro m _ d c hD hStep e he
          obtain ⟨a, hA, hInsert⟩ := Except.bind_eq_ok_iff.1 hStep
          cases hInsert
          rcases mem_insertEntry he with rfl | he
          · exact h.fits hA
          · exact hD e he
        · intro e he
          cases he
    | _ => exact absurd hRead not_mismatch_eq_ok

theorem names : Faithful ofNames Decoder.nameSet fun _ => True where
  readable := fun {names} _ => strings.readable (a := names.keys) trivial
  read_write := by
    intro names _
    have hKeys : names.keys.map Json.str = names.entries.map fun e => .str e.1 := List.map_map
    change (names.keys.map Json.str).foldlM _ ∅ = _
    rw [hKeys]
    exact foldlM_entries names fun _ _ _ => rfl
  fits := fun _ => trivial

/-- Cases of an enumeration are written as their names. -/
theorem variant {name : α → String} {ofName? : String → Option α} (origin : Origin)
    (names : List String) (hName : ∀ a, ofName? (name a) = some a) :
    Faithful (fun a => .str (name a)) (Decoder.variant origin names ofName?) fun _ => True where
  readable := fun _ => trivial
  read_write := by
    intro a _
    simp only [Decoder.variant, hName]
  fits := fun _ => trivial

end Faithful

end SourceSurvey.Json
