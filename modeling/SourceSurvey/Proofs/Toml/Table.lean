import SourceSurvey.Proofs.Dictionary
import SourceSurvey.Toml.Parser
import Mathlib.Data.Option.Basic

/-!
Tables of a document. Their entries are sorted, so no key comes twice, whether a table is opened by a
header, grows by dotted keys or stands in braces.
-/

namespace SourceSurvey.Toml

/-- If the value is a table, its entries are in the order of their keys. -/
def Sorted (t : Toml) : Prop := ∀ entries, t.entries? = some entries → KeysSorted entries

/-- Only tables have keys that could be out of order. -/
theorem sorted_of_entries?_eq_none {t : Toml} (h : t.entries? = none) : t.Sorted := by
  intro entries hEntries
  rw [h] at hEntries
  cases hEntries

theorem sorted_table {entries : List (String × Toml)} (h : KeysSorted entries) :
    (table entries).Sorted := by
  rintro _ ⟨⟩
  exact h

namespace Parser

/-! ### Values -/

/-- However its entries have been added, a finished table is sorted. -/
theorem keysSorted_finishEntries (entries : Entries) : KeysSorted (finishEntries entries) := by
  induction entries with
  | nil => exact .nil
  | cons entry rest ih =>
      rw [finishEntries]
      exact keysSorted_insertEntry ih

/-- What is read, if anything, is no table. -/
def Flat (read : Option (Toml × List Char)) : Prop :=
  ∀ t rest, read = some (t, rest) → t.entries? = none

theorem flat_none : Flat none := by
  rintro _ _ ⟨⟩

theorem flat_some {t : Toml} (h : t.entries? = none) (rest : List Char) : Flat (some (t, rest)) := by
  rintro _ _ ⟨⟩
  exact h

/-- A reader is flat if it is whatever has been read before. -/
theorem Flat.bind {α : Type} {read : Option α} {next : α → Option (Toml × List Char)}
    (h : ∀ a, Flat (next a)) : Flat (read >>= next) := by
  intro t rest hBoth
  obtain ⟨a, _, hNext⟩ := Option.bind_eq_some_iff.1 hBoth
  exact h a t rest hNext

/-- Of two flat readers that are tried in turn it does not matter which one succeeds. -/
theorem Flat.orElse {read : Option (Toml × List Char)}
    {other : Unit → Option (Toml × List Char)} (h : Flat read) (hOther : Flat (other ())) :
    Flat (read.orElse other) := by
  cases read with
  | none => exact hOther
  | some _ => exact h

theorem Flat.sorted {read : Option (Toml × List Char)} (h : Flat read) {t : Toml} {rest : List Char}
    (hRead : read = some (t, rest)) : t.Sorted :=
  sorted_of_entries?_eq_none (h t rest hRead)

theorem flat_moment (cs : List Char) : Flat (moment cs) := by
  rw [moment]
  split
  · split
    · split
      · split
        · exact .bind fun _ => flat_some rfl _
        · split
          · exact flat_some rfl _
          · exact flat_none
      · exact flat_some rfl _
    · exact flat_some rfl _
  · exact .bind fun _ => flat_some rfl _

theorem flat_basedNumber (cs : List Char) : Flat (basedNumber cs) := by
  have hBase : ∀ base isDigit cs, Flat (basedNumber.withBase base isDigit cs) := by
    intro base isDigit cs
    exact .bind fun _ => .bind fun _ => flat_some rfl _
  rw [basedNumber.eq_def]
  split
  · exact hBase _ _ _
  · exact hBase _ _ _
  · exact hBase _ _ _
  · exact flat_none

theorem flat_specialFloat (cs : List Char) : Flat (specialFloat cs) := by
  simp only [specialFloat]
  split
  · exact flat_some rfl _
  · exact flat_some rfl _
  · exact flat_none

theorem flat_decimalNumber (cs : List Char) : Flat (decimalNumber cs) := by
  rw [decimalNumber]
  refine .bind fun ⟨⟨negative, whole⟩, rest⟩ => ?_
  dsimp -zeta only
  extract_lets n signed withPart
  have hPart : ∀ part, Flat (withPart part) := by
    rintro ⟨part, rest⟩
    dsimp -zeta only [withPart]
    extract_lets hasPart digits withExponent
    have hExponent : ∀ exponent, Flat (withExponent exponent) := by
      rintro ⟨exponent?, rest⟩
      simp only [withExponent]
      split
      · exact .bind fun _ => flat_some rfl _
      · exact .bind fun _ => flat_some rfl _
    split
    · exact .bind fun _ => .bind hExponent
    · exact .bind fun _ => .bind hExponent
    · exact .bind hExponent
  split
  · exact .bind hPart
  · exact .bind hPart

theorem flat_arrayItems (depth fuel : Nat) (acc : List Toml) (cs : List Char) :
    Flat (arrayItems depth acc fuel cs) := by
  induction fuel generalizing acc cs with
  | zero => exact flat_none
  | succ fuel ih =>
      rw [arrayItems]
      split
      · exact flat_some rfl _
      · refine .bind fun ⟨item, rest⟩ => ?_
        dsimp only
        split
        · exact ih _ _
        · exact flat_some rfl _
        · exact flat_none

/-- An inline table is sorted, as it is built like any other. -/
theorem sorted_of_inlineEntries {depth fuel : Nat} {acc : Entries} {cs rest : List Char} {t : Toml}
    (h : inlineEntries depth acc fuel cs = some (t, rest)) : t.Sorted := by
  induction fuel generalizing acc cs with
  | zero => cases h
  | succ fuel ih =>
      rw [inlineEntries] at h
      obtain ⟨_, _, h⟩ := Option.bind_eq_some_iff.1 h
      obtain ⟨_, _, h⟩ := Option.bind_eq_some_iff.1 h
      obtain ⟨_, _, h⟩ := Option.bind_eq_some_iff.1 h
      obtain ⟨_, _, h⟩ := Option.bind_eq_some_iff.1 h
      split at h
      · exact ih h
      · cases h
        exact sorted_table (keysSorted_finishEntries _)
      · cases h

/-- All values are sorted: they are flat, or tables that have been finished. -/
theorem sorted_of_anyValue {depth fuel : Nat} {cs rest : List Char} {t : Toml}
    (h : anyValue depth fuel cs = some (t, rest)) : t.Sorted := by
  cases fuel with
  | zero => cases h
  | succ fuel =>
      cases cs with
      | nil => cases h
      | cons c cs =>
          rw [anyValue] at h
          split at h
          · obtain ⟨_, _, hValue⟩ := Option.map_eq_some_iff.1 h
            cases hValue
            exact sorted_of_entries?_eq_none rfl
          split at h
          · split at h
            · cases h
            · exact (flat_arrayItems _ _ _ _).sorted h
          split at h
          · split at h
            · cases h
            · split at h
              · cases h
                exact sorted_table .nil
              · exact sorted_of_inlineEntries h
          split at h
          · cases h
            exact sorted_of_entries?_eq_none rfl
          split at h
          · cases h
            exact sorted_of_entries?_eq_none rfl
          exact ((flat_moment _).orElse ((flat_basedNumber _).orElse
            ((flat_specialFloat _).orElse (flat_decimalNumber _)))).sorted h

/-! ### Documents -/

/-- The values next to tables are sorted if they are tables themselves. -/
def ValuesSorted (entries : Entries) : Prop :=
  ∀ key t, (key, Node.value t) ∈ entries → t.Sorted

theorem mem_set {key : String} {node : Node} {entries : Entries} {e : String × Node}
    (h : e ∈ set key node entries) : e = (key, node) ∨ e ∈ entries := by
  induction entries with
  | nil => simpa [set] using h
  | cons entry rest ih =>
      rw [set] at h
      split at h
      · exact (List.mem_cons.1 h).imp id (List.mem_cons_of_mem _)
      · rcases List.mem_cons.1 h with hFirst | hRest
        · exact .inr (hFirst ▸ List.mem_cons_self)
        · exact (ih hRest).imp id (List.mem_cons_of_mem _)

theorem ValuesSorted.set {entries : Entries} (h : ValuesSorted entries) {key : String} {node : Node}
    (hNode : ∀ t, node = .value t → t.Sorted) : ValuesSorted (set key node entries) := by
  intro k t hMem
  rcases mem_set hMem with hNew | hOld
  · exact hNode t (Prod.ext_iff.1 hNew).2.symm
  · exact h k t hOld

/-- What is changed below a key is a table or a list of tables, and not a value. -/
theorem ValuesSorted.updateAt {byDots : Bool}
    {change : Option Definition → Entries → Option Entries}
    (hChange : ∀ definition entries changed, ValuesSorted entries →
      change definition entries = some changed → ValuesSorted changed)
    {definition : Option Definition} {path : List String} {entries changed : Entries}
    (h : ValuesSorted entries)
    (hUpdate : updateAt byDots change definition path entries = some changed) :
    ValuesSorted changed := by
  cases path with
  | nil => exact hChange _ _ _ h hUpdate
  | cons key path =>
      rw [Parser.updateAt] at hUpdate
      split at hUpdate
      · obtain ⟨_, _, hChanged⟩ := Option.bind_eq_some_iff.1 hUpdate
        cases hChanged
        exact h.set (by simp)
      · cases hUpdate
      · obtain ⟨_, _, hUpdate⟩ := Option.bind_eq_some_iff.1 hUpdate
        obtain ⟨_, _, hChanged⟩ := Option.bind_eq_some_iff.1 hUpdate
        cases hChanged
        exact h.set (by simp)
      · obtain ⟨_, _, hChanged⟩ := Option.bind_eq_some_iff.1 hUpdate
        cases hChanged
        exact h.set (by simp)
      · cases hUpdate

/-- Values that are sorted keep a table one of sorted values, however deep they are put in. -/
theorem ValuesSorted.insertValue {path : List String} {t : Toml} {entries changed : Entries}
    (h : ValuesSorted entries) (hValue : t.Sorted)
    (hInsert : insertValue path (.value t) entries = some changed) : ValuesSorted changed := by
  obtain ⟨key, _, hUpdate⟩ := Option.bind_eq_some_iff.1 hInsert
  refine h.updateAt ?_ hUpdate
  intro definition before after hBefore hAfter
  obtain ⟨_, _, hAfter⟩ := Option.bind_eq_some_iff.1 hAfter
  obtain ⟨_, _, hAfter⟩ := Option.bind_eq_some_iff.1 hAfter
  cases hAfter
  refine hBefore.set ?_
  rintro _ ⟨⟩
  exact hValue

theorem ValuesSorted.insertBelow {header path : List String} {t : Toml} {entries changed : Entries}
    (h : ValuesSorted entries) (hValue : t.Sorted)
    (hInsert : insertBelow header path (.value t) entries = some changed) : ValuesSorted changed :=
  h.updateAt (fun _ _ _ hBefore hAfter => hBefore.insertValue hValue hAfter) hInsert

/-- A table that a header opens has no values yet. -/
theorem ValuesSorted.openTable {path : List String} {entries changed : Entries}
    (h : ValuesSorted entries) (hOpen : openTable path entries = some changed) :
    ValuesSorted changed := by
  obtain ⟨key, _, hUpdate⟩ := Option.bind_eq_some_iff.1 hOpen
  refine h.updateAt ?_ hUpdate
  intro definition before after hBefore hAfter
  split at hAfter
  · cases hAfter
    exact hBefore.set (by simp)
  · cases hAfter
    exact hBefore.set (by simp)
  · cases hAfter

theorem ValuesSorted.appendTable {path : List String} {entries changed : Entries}
    (h : ValuesSorted entries) (hAppend : appendTable path entries = some changed) :
    ValuesSorted changed := by
  obtain ⟨key, _, hUpdate⟩ := Option.bind_eq_some_iff.1 hAppend
  refine h.updateAt ?_ hUpdate
  intro definition before after hBefore hAfter
  split at hAfter
  · cases hAfter
    exact hBefore.set (by simp)
  · cases hAfter
    exact hBefore.set (by simp)
  · cases hAfter

/-- A document is finished at its end and only there. Up to then all values in it are sorted. -/
theorem exists_entries_of_document {header : List String} {entries : Entries} {fuel : Nat}
    {cs : List Char} {doc : Toml} (h : ValuesSorted entries)
    (hDocument : document header entries fuel cs = some doc) :
    ∃ final, doc = .table (finishEntries final) ∧ ValuesSorted final := by
  induction fuel generalizing header entries cs with
  | zero => cases hDocument
  | succ fuel ih =>
      rw [document] at hDocument
      split at hDocument
      · cases hDocument
        exact ⟨entries, rfl, h⟩
      · obtain ⟨⟨path, rest⟩, _, hDocument⟩ := Option.bind_eq_some_iff.1 hDocument
        dsimp only at hDocument
        split at hDocument
        · obtain ⟨_, hAppend, hDocument⟩ := Option.bind_eq_some_iff.1 hDocument
          obtain ⟨_, _, hDocument⟩ := Option.bind_eq_some_iff.1 hDocument
          exact ih (h.appendTable hAppend) hDocument
        · cases hDocument
      · obtain ⟨_, _, hDocument⟩ := Option.bind_eq_some_iff.1 hDocument
        obtain ⟨_, _, hDocument⟩ := Option.bind_eq_some_iff.1 hDocument
        obtain ⟨_, hOpen, hDocument⟩ := Option.bind_eq_some_iff.1 hDocument
        obtain ⟨_, _, hDocument⟩ := Option.bind_eq_some_iff.1 hDocument
        exact ih (h.openTable hOpen) hDocument
      · obtain ⟨_, _, hDocument⟩ := Option.bind_eq_some_iff.1 hDocument
        obtain ⟨_, _, hDocument⟩ := Option.bind_eq_some_iff.1 hDocument
        obtain ⟨_, hValue, hDocument⟩ := Option.bind_eq_some_iff.1 hDocument
        obtain ⟨_, hInsert, hDocument⟩ := Option.bind_eq_some_iff.1 hDocument
        obtain ⟨_, _, hDocument⟩ := Option.bind_eq_some_iff.1 hDocument
        exact ih (h.insertBelow (sorted_of_anyValue hValue) hInsert) hDocument

/-- To finish a table leaves its values under their keys. -/
theorem lookup_finishEntries (key : String) (entries : Entries) :
    (finishEntries entries).lookup key = (lookup key entries).map Node.finish := by
  induction entries with
  | nil => rfl
  | cons entry rest ih =>
      obtain ⟨k, node⟩ := entry
      rw [finishEntries, lookup_insertEntry, ih, lookup, lookup]
      by_cases hKey : key = k
      · simp [hKey]
      · simp [hKey, Ne.symm hKey]

theorem sorted_finish {key : String} {entries : Entries} (h : ValuesSorted entries) {node : Node}
    (hMem : (key, node) ∈ entries) : node.finish.Sorted := by
  cases node with
  | value t =>
      rw [Node.finish]
      exact h key t hMem
  | table definition inner =>
      rw [Node.finish]
      exact sorted_table (keysSorted_finishEntries inner)
  | tables elements =>
      rw [Node.finish]
      exact sorted_of_entries?_eq_none rfl

end Parser

/-- No key comes twice in a table of a document. -/
theorem sorted_of_parse? {text key : String} {doc t : Toml} (h : parse? text = some doc)
    (hGet : doc.get? key = some t) : t.Sorted := by
  obtain ⟨entries, rfl, hValues⟩ := Parser.exists_entries_of_document (by simp [Parser.ValuesSorted]) h
  rw [get?, Parser.lookup_finishEntries, Parser.lookup, Option.map_map] at hGet
  obtain ⟨⟨k, node⟩, hFind, rfl⟩ := Option.map_eq_some_iff.1 hGet
  exact Parser.sorted_finish hValues (List.mem_of_find?_eq_some hFind)

end SourceSurvey.Toml
