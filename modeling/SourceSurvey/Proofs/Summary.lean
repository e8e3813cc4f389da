import SourceSurvey.Proofs.Dictionary
import SourceSurvey.Summary

/-!
The histogram of languages counts every record once, under the name of its language.
-/

namespace SourceSurvey

theorem Language.name_injective {l l' : Language} (h : l.name = l'.name) : l = l' := by
  have hName : ∀ l : Language, ofName? l.name = some l := by
    intro l
    cases l <;> decide
  exact Option.some.inj ((hName l).symm.trans ((congrArg ofName? h).trans (hName l')))

/-- An entry that is put in adds its value to the sum in place of the value that was there. -/
theorem total_insertEntry {entries : List (String × Nat)} (hSorted : KeysSorted entries)
    (key : String) (value : Nat) :
    total ((insertEntry key value entries).map (·.2)) + (entries.lookup key).getD 0 =
      total (entries.map (·.2)) + value := by
  induction entries with
  | nil => simp [insertEntry]
  | cons entry rest ih =>
      obtain ⟨k, v⟩ := entry
      rw [KeysSorted, List.pairwise_cons] at hSorted
      have hRest := ih hSorted.2
      rw [lookup_cons_eq_ite, insertEntry]
      split
      · rename_i hLess
        have hAbsent : rest.lookup key = none := by
          by_contra hSome
          obtain ⟨v', hV⟩ := Option.ne_none_iff_exists'.1 hSome
          have hMem := (mem_iff_lookup_eq_some (KeysSorted.nodup_keys hSorted.2)).2 hV
          exact String.lt_irrefl key (String.lt_trans hLess (hSorted.1 _ hMem))
        have hOther : key ≠ k := fun h => String.lt_irrefl k (h ▸ hLess)
        simp only [if_neg hOther, hAbsent, List.map_cons, total_cons, Option.getD_none]
        omega
      · split
        · simp only [List.map_cons, total_cons, Option.getD_some]
          omega
        · simp only [List.map_cons, total_cons]
          omega

namespace Summary

/-- What one language adds to a histogram. -/
def tallied (d : Dictionary Nat) (l : Language) : Dictionary Nat :=
  d.insert l.name ((d.get? l.name).getD 0 + 1)

/-- By induction over the languages: each adds one to its own count. -/
theorem getD_get?_foldl_tallied (languages : List Language) (d : Dictionary Nat) (key : String) :
    ((languages.foldl tallied d).get? key).getD 0 =
      (d.get? key).getD 0 + languages.countP (·.name = key) := by
  induction languages generalizing d with
  | nil => simp
  | cons l languages ih =>
      rw [List.foldl_cons, ih, tallied, Dictionary.get?_insert, List.countP_cons]
      by_cases hKey : key = l.name
      · subst hKey
        simp only [if_true, Option.getD_some, decide_true]
        omega
      · simp [hKey, Ne.symm hKey]

/-- Languages without records have no count. -/
theorem mem_keys_foldl_tallied (languages : List Language) (d : Dictionary Nat) (key : String) :
    key ∈ (languages.foldl tallied d).keys ↔ key ∈ d.keys ∨ ∃ l ∈ languages, l.name = key := by
  induction languages generalizing d with
  | nil => simp
  | cons l languages ih =>
      rw [List.foldl_cons, ih, tallied, Dictionary.mem_keys_insert]
      simp only [List.exists_mem_cons_iff, eq_comm]
      tauto

/-- A histogram maps the languages that are there to how often they are. -/
theorem get?_histogram_eq_some_iff {languages : List Language} {key : String} {n : Nat} :
    (histogram languages).get? key = some n ↔
      ∃ l ∈ languages, l.name = key ∧ n = languages.count l := by
  have hKeys : key ∈ (histogram languages).keys ↔ ∃ l ∈ languages, l.name = key := by
    have hEmpty : key ∉ (∅ : Dictionary Nat).keys := by simp [Dictionary.mem_keys_iff]
    exact (mem_keys_foldl_tallied languages ∅ key).trans (or_iff_right hEmpty)
  have hCount : ((histogram languages).get? key).getD 0 = languages.countP (·.name = key) :=
    (getD_get?_foldl_tallied languages ∅ key).trans (Nat.zero_add _)
  have hSame : ∀ l : Language, l.name = key →
      languages.countP (·.name = key) = languages.count l := by
    intro l hName
    apply List.countP_congr
    intro l' _
    simp only [decide_eq_true_eq, beq_iff_eq]
    exact ⟨fun h => Language.name_injective (h.trans hName.symm), fun h => h ▸ hName⟩
  rw [Dictionary.mem_keys_iff] at hKeys
  constructor
  · intro h
    obtain ⟨l, hMem, hName⟩ := hKeys.1 ⟨n, h⟩
    rw [h, Option.getD_some, hSame l hName] at hCount
    exact ⟨l, hMem, hName, hCount⟩
  · rintro ⟨l, hMem, hName, rfl⟩
    obtain ⟨n, h⟩ := hKeys.2 ⟨l, hMem, hName⟩
    rw [h, Option.getD_some, hSame l hName] at hCount
    rw [h, hCount]

/-- A histogram counts, and does not have what it has not counted. -/
theorem get?_histogram (languages : List Language) (key : String) :
    (histogram languages).get? key =
      if languages.countP (·.name = key) = 0 then none
      else some (languages.countP (·.name = key)) := by
  have hCount : ((histogram languages).get? key).getD 0 = languages.countP (·.name = key) :=
    (getD_get?_foldl_tallied languages ∅ key).trans (Nat.zero_add _)
  cases hFound : (histogram languages).get? key with
  | none =>
      rw [hFound, Option.getD_none] at hCount
      rw [if_pos hCount.symm]
  | some n =>
      obtain ⟨l, hMem, _, rfl⟩ := get?_histogram_eq_some_iff.1 hFound
      rw [hFound, Option.getD_some] at hCount
      rw [← hCount, if_neg (Nat.ne_of_gt (List.count_pos_iff.2 hMem))]

theorem histogram_perm {languages languages' : List Language} (h : languages.Perm languages') :
    histogram languages = histogram languages' := by
  apply Dictionary.eq_of_get?
  intro key
  rw [get?_histogram, get?_histogram, h.countP_eq]

/-- The counts of two parts are added up. -/
theorem get?_histogram_append (xs ys : List Language) (key : String) :
    (histogram (xs ++ ys)).get? key =
      Option.merge (· + ·) ((histogram xs).get? key) ((histogram ys).get? key) := by
  simp only [get?_histogram, List.countP_append, Nat.add_eq_zero_iff]
  by_cases hX : xs.countP (·.name = key) = 0 <;> by_cases hY : ys.countP (·.name = key) = 0 <;>
    simp [hX, hY]

/-- All counts together are as many as there are languages to count. -/
theorem total_foldl_tallied (languages : List Language) (d : Dictionary Nat) :
    total ((languages.foldl tallied d).entries.map (·.2)) =
      total (d.entries.map (·.2)) + languages.length := by
  induction languages generalizing d with
  | nil => rfl
  | cons l languages ih =>
      have hInsert := total_insertEntry d.sorted l.name ((d.get? l.name).getD 0 + 1)
      have hStep : total ((tallied d l).entries.map (·.2)) = total (d.entries.map (·.2)) + 1 := by
        change total ((insertEntry l.name _ d.entries).map (·.2)) = _
        change _ + (d.get? l.name).getD 0 = _ at hInsert
        omega
      rw [List.foldl_cons, ih, hStep, List.length_cons]
      omega

/-- The counts of a histogram add up to the number of all that has been counted. -/
theorem total_histogram (languages : List Language) :
    total ((histogram languages).entries.map (·.2)) = languages.length :=
  (total_foldl_tallied languages ∅).trans (Nat.zero_add _)

end Summary

end SourceSurvey
