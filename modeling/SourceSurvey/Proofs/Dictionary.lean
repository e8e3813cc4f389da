import SourceSurvey.Dictionary
import Mathlib.Data.List.Nodup
import Mathlib.Tactic.Tauto

/-!
A dictionary is the function from keys to values that `get?` is: an entry that is put in changes
one value, and a dictionary built from its own entries is the same again.
-/

namespace SourceSurvey

variable {α : Type}

theorem lookup_cons_eq_ite (k : String) (v : α) (rest : List (String × α)) (key : String) :
    ((k, v) :: rest).lookup key = if key = k then some v else rest.lookup key := by
  by_cases hKey : key = k
  · simp [hKey]
  · rw [List.lookup_cons, beq_eq_false_iff_ne.2 hKey, if_neg hKey]

/-- An entry is found under its own key, and under all other keys what was there before. -/
theorem lookup_insertEntry (key : String) (value : α) (entries : List (String × α))
    (other : String) : (insertEntry key value entries).lookup other =
      if other = key then some value else entries.lookup other := by
  induction entries with
  | nil => rw [insertEntry, lookup_cons_eq_ite]
  | cons entry rest ih =>
      obtain ⟨k, v⟩ := entry
      simp only [insertEntry]
      split
      · rw [lookup_cons_eq_ite]
      · split
        · rename_i hSame
          subst hSame
          simp only [lookup_cons_eq_ite]
          split <;> rfl
        · rename_i hDifferent
          simp only [lookup_cons_eq_ite, ih]
          by_cases hOther : other = key
          · subst hOther
            simp [hDifferent]
          · simp [hOther]

/-- A key after all others goes to the end. -/
theorem insertEntry_eq_append {key : String} (value : α) {entries : List (String × α)}
    (hLast : ∀ e ∈ entries, e.1 < key) :
    insertEntry key value entries = entries ++ [(key, value)] := by
  induction entries with
  | nil => rfl
  | cons entry rest ih =>
      obtain ⟨k, v⟩ := entry
      have hLess : k < key := hLast (k, v) List.mem_cons_self
      have hNot : ¬key < k := fun h => String.lt_irrefl k (String.lt_trans hLess h)
      have hDifferent : key ≠ k := fun h => hNot (h ▸ hLess)
      rw [insertEntry, if_neg hNot, if_neg hDifferent,
        ih fun e he => hLast e (List.mem_cons_of_mem _ he)]
      rfl

theorem KeysSorted.nodup_keys {entries : List (String × α)} (h : KeysSorted entries) :
    (entries.map (·.1)).Nodup :=
  List.pairwise_map.2 (h.imp String.ne_of_lt)

/-- Where no key comes twice, an entry is found by its key. -/
theorem mem_iff_lookup_eq_some {entries : List (String × α)}
    (hOnce : (entries.map (·.1)).Nodup) {key : String} {value : α} :
    (key, value) ∈ entries ↔ entries.lookup key = some value := by
  induction entries with
  | nil => simp
  | cons entry rest ih =>
      obtain ⟨k, v⟩ := entry
      rw [List.map_cons, List.nodup_cons] at hOnce
      rw [lookup_cons_eq_ite, List.mem_cons, ih hOnce.2]
      by_cases hKey : key = k
      · subst hKey
        have hAbsent : rest.lookup key ≠ some value :=
          fun h => hOnce.1 (List.mem_map_of_mem (f := (·.1)) ((ih hOnce.2).2 h))
        simp [hAbsent, eq_comm]
      · simp [hKey]

/-- The first entries are those with few keys below their own. -/
theorem KeysSorted.mem_take_iff_countP {entries : List (String × α)} (h : KeysSorted entries)
    {count : Nat} {e : String × α} : e ∈ entries.take count ↔
      e ∈ entries ∧ (entries.map (·.1)).countP (· < e.1) < count := by
  induction entries generalizing count with
  | nil => simp
  | cons first rest ih =>
      obtain ⟨hFirst, hRest⟩ := List.pairwise_cons.1 h
      cases count with
      | zero => simp
      | succ count =>
          rw [List.take_succ_cons, List.mem_cons, List.mem_cons, ih hRest, List.map_cons,
            List.countP_cons]
          constructor
          · rintro (rfl | ⟨hMem, hFew⟩)
            · have hNone : (rest.map (·.1)).countP (· < e.1) = 0 := by
                simp only [List.countP_eq_zero, List.mem_map, decide_eq_true_eq]
                rintro _ ⟨other, hOther, rfl⟩
                exact fun h => String.lt_irrefl _ (String.lt_trans h (hFirst other hOther))
              rw [hNone, decide_eq_false (String.lt_irrefl e.1)]
              exact ⟨.inl rfl, by simp⟩
            · refine ⟨.inr hMem, ?_⟩
              simp only [hFirst e hMem, decide_true, if_true]
              omega
          · rintro ⟨rfl | hMem, hFew⟩
            · exact .inl rfl
            · refine .inr ⟨hMem, ?_⟩
              simp only [hFirst e hMem, decide_true, if_true] at hFew
              omega

namespace Dictionary

variable (d : Dictionary α)

/-- A dictionary has no more to it than its entries, as these are always sorted. -/
theorem ext {d e : Dictionary α} (h : d.entries = e.entries) : d = e := by
  cases d
  cases e
  cases h
  rfl

@[simp]
theorem get?_empty (key : String) : (∅ : Dictionary α).get? key = none := rfl

/-- The last value for a key is the one that is kept. -/
theorem get?_insert (key : String) (value : α) (other : String) :
    (d.insert key value).get? other = if other = key then some value else d.get? other :=
  lookup_insertEntry key value d.entries other

/-- A dictionary can be read as a list or by its keys. -/
theorem mem_entries_iff {key : String} {value : α} :
    (key, value) ∈ d.entries ↔ d.get? key = some value :=
  mem_iff_lookup_eq_some d.sorted.nodup_keys

/-- A dictionary is settled by what is found in it. -/
theorem eq_of_get? {d e : Dictionary α} (h : ∀ key, d.get? key = e.get? key) : d = e := by
  have hMem : ∀ entry, entry ∈ d.entries ↔ entry ∈ e.entries := by
    rintro ⟨key, value⟩
    rw [mem_entries_iff, mem_entries_iff, h]
  have hPerm : d.entries.Perm e.entries :=
    (List.perm_ext_iff_of_nodup d.sorted.nodup_keys.of_map e.sorted.nodup_keys.of_map).2 hMem
  exact ext (hPerm.eq_of_pairwise (fun a b _ _ hLess hMore => absurd hMore (String.lt_asymm hLess))
    d.sorted e.sorted)

theorem mem_keys_iff {key : String} : key ∈ d.keys ↔ ∃ value, d.get? key = some value := by
  simp only [keys, List.mem_map, Prod.exists, exists_and_right, exists_eq_right, mem_entries_iff]

theorem mem_keys_insert {key : String} {value : α} {other : String} :
    other ∈ (d.insert key value).keys ↔ other = key ∨ other ∈ d.keys := by
  simp only [mem_keys_iff, get?_insert]
  by_cases hOther : other = key <;> simp [hOther]

/-- Entries that are inserted one by one add their keys and no others. -/
theorem mem_keys_foldl_insert {entries : List (String × α)} {key : String} :
    key ∈ (entries.foldl (fun d e => d.insert e.1 e.2) d).keys ↔
      key ∈ d.keys ∨ key ∈ entries.map (·.1) := by
  induction entries generalizing d with
  | nil => simp
  | cons e entries ih =>
      rw [List.foldl_cons, ih, mem_keys_insert, List.map_cons, List.mem_cons]
      tauto

/-- Entries that are put in one after the other, in the order of their keys, are kept as they
are. -/
theorem entries_foldl_insert {entries : List (String × α)}
    (hSorted : KeysSorted (d.entries ++ entries)) :
    (entries.foldl (fun d e => d.insert e.1 e.2) d).entries = d.entries ++ entries := by
  induction entries generalizing d with
  | nil => simp
  | cons entry rest ih =>
      have hInsert : (d.insert entry.1 entry.2).entries = d.entries ++ [entry] := by
        apply insertEntry_eq_append
        intro e he
        exact (List.pairwise_append.1 hSorted).2.2 e he entry List.mem_cons_self
      rw [List.foldl_cons, ih]
      · rw [hInsert, List.append_assoc, List.singleton_append]
      · rwa [hInsert, List.append_assoc, List.singleton_append]

/-- A dictionary can be built again from its own entries. -/
theorem foldl_insert_entries :
    d.entries.foldl (fun d e => d.insert e.1 e.2) (∅ : Dictionary α) = d :=
  ext (entries_foldl_insert ∅ d.sorted)

/-- Of several entries with one key the last counts, and before all of them what was in the
dictionary. -/
theorem get?_foldl_insert (entries : List (String × α)) (key : String) :
    (entries.foldl (fun d e => d.insert e.1 e.2) d).get? key =
      (entries.reverse.lookup key).or (d.get? key) := by
  induction entries generalizing d with
  | nil => rfl
  | cons e entries ih =>
      obtain ⟨k, v⟩ := e
      rw [List.foldl_cons, ih, get?_insert, List.reverse_cons, List.lookup_append,
        lookup_cons_eq_ite, List.lookup_nil, Option.or_assoc]
      by_cases hKey : key = k <;> simp [hKey]

/-- Of entries with the same key the last counts. -/
theorem get?_ofList (entries : List (String × α)) (key : String) :
    (ofList entries).get? key = entries.reverse.lookup key :=
  (get?_foldl_insert ∅ entries key).trans (by simp)

/-- The entries of the second list take precedence. -/
theorem get?_ofList_append (xs ys : List (String × α)) (key : String) :
    (ofList (xs ++ ys)).get? key = ((ofList ys).get? key).or ((ofList xs).get? key) := by
  rw [get?_ofList, get?_ofList, get?_ofList, List.reverse_append, List.lookup_append]

/-- Where no key comes twice it does not matter which entry counts. -/
theorem get?_ofList_of_nodup {entries : List (String × α)} (h : (entries.map (·.1)).Nodup)
    (key : String) : (ofList entries).get? key = entries.lookup key := by
  have hReverse : (entries.reverse.map (·.1)).Nodup := by
    rwa [List.map_reverse, List.nodup_reverse]
  rw [get?_ofList]
  apply Option.ext
  intro value
  rw [← mem_iff_lookup_eq_some h, ← mem_iff_lookup_eq_some hReverse, List.mem_reverse]

/-- Of the entries, those with the smallest keys are taken: an entry stays if few keys are smaller
than its own. -/
theorem mem_take_iff {count : Nat} {e : String × α} :
    e ∈ (d.take count).entries ↔ e ∈ d.entries ∧ d.keys.countP (· < e.1) < count :=
  d.sorted.mem_take_iff_countP

end Dictionary

@[simp]
theorem NameSet.mem_keys_ofNames {names : List String} {name : String} :
    name ∈ (NameSet.ofNames names).keys ↔ name ∈ names := by
  have hEmpty : name ∉ (∅ : NameSet).keys := by simp [Dictionary.mem_keys_iff]
  have hKeys : name ∈ (NameSet.ofNames names).keys ↔
      name ∈ (∅ : NameSet).keys ∨ name ∈ (names.map fun name => (name, ())).map (·.1) :=
    Dictionary.mem_keys_foldl_insert ∅
  simp only [List.map_map, Function.comp_def, List.map_id'] at hKeys
  exact hKeys.trans (or_iff_right hEmpty)

end SourceSurvey
