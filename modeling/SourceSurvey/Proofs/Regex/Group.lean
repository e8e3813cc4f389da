import SourceSurvey.Proofs.Regex.Language
import SourceSurvey.Regex.Standard

/-!
What the groups of an expression capture in the matches that are found by trying alternatives: pieces
of the text, as the expression in the group describes them.
-/

namespace SourceSurvey

namespace Regex

variable {r : Regex} {text : List Char} {m : Match} {place : Cursor}

/-- A capture of a match is a text of its group. -/
theorem holds_of_matchAt? {cur : Cursor} (hIn : cur.IsIn text) (h : matchAt? r cur = some m) :
    ∀ e ∈ m.captures, Holds text r.groups e := by
  obtain ⟨cur', t, hAdvances, hMatch⟩ := run_advances r [] hIn h
  cases hMatch
  intro e hE
  rcases hAdvances.captures e hE with hNone | hNew
  · cases hNone
  · exact hNew

theorem holds_of_findFrom? {before : Option Char} {index : Nat} {rest : List Char}
    (hIn : (⟨before, index, rest⟩ : Cursor).IsIn text)
    (h : findFrom? r before index rest = some (m, place)) :
    (∀ e ∈ m.captures, Holds text r.groups e) ∧ place.IsIn text := by
  induction rest generalizing before index with
  | nil =>
      obtain ⟨_, hMatch, hSame⟩ := Option.map_eq_some_iff.1 h
      cases hSame
      exact ⟨holds_of_matchAt? hIn hMatch, hIn⟩
  | cons c rest ih =>
      rw [findFrom?] at h
      split at h
      · rename_i hMatch
        cases h
        exact ⟨holds_of_matchAt? hIn hMatch, hIn⟩
      · exact ih hIn.next h

/-- By induction over the fuel: so it is for all matches. -/
theorem holds_of_mem_matchesFrom {lastStop : Option Nat} {fuel : Nat} {cur : Cursor}
    (hIn : cur.IsIn text) (h : m ∈ matchesFrom r lastStop fuel cur) :
    ∀ e ∈ m.captures, Holds text r.groups e := by
  induction fuel generalizing lastStop cur with
  | zero => cases h
  | succ fuel ih =>
      rw [matchesFrom] at h
      split at h
      · cases h
      · rename_i hFound
        obtain ⟨hHolds, hPlace⟩ := holds_of_findFrom? hIn hFound
        split at h
        · split at h
          · cases h
          · rename_i hNext
            obtain ⟨before, index, rest⟩ := cur
            cases rest with
            | nil => cases hNext
            | cons c rest =>
                cases hNext
                exact ih hIn.next h
        · rcases List.mem_cons.1 h with rfl | hLater
          · exact hHolds
          · exact ih (hPlace.skipTo _) hLater

/-- What the first group captures is a piece of the text, as the expression in the group describes
it. -/
theorem exists_of_mem_firstGroups {value : List Char} (h : value ∈ r.firstGroups text) :
    value <:+: text ∧ ∃ inner, (1, inner) ∈ r.groups ∧ value ∈ inner.language := by
  obtain ⟨m, hMatch, hGroup⟩ := List.mem_filterMap.1 h
  obtain ⟨e, hEntry, rfl⟩ := Option.map_eq_some_iff.1 hGroup
  obtain ⟨inner, hInner, hText⟩ := holds_of_mem_matchesFrom (Cursor.isIn_start text) hMatch e
    (List.mem_of_find?_eq_some hEntry)
  have hNumber : e.1 = 1 := by simpa using List.find?_some hEntry
  refine ⟨?_, inner, hNumber ▸ hInner, hText⟩
  exact (List.take_prefix _ _).isInfix.trans (List.drop_suffix _ _).isInfix

/-- The captures of an expression that has a single group. -/
theorem mem_language_of_mem_firstGroups {inner : Regex} (hGroups : r.groups = [(1, inner)])
    {value : List Char} (h : value ∈ r.firstGroups text) : value <:+: text ∧ value ∈ inner.language := by
  obtain ⟨hInfix, other, hOther, hValue⟩ := exists_of_mem_firstGroups h
  rw [hGroups, List.mem_singleton] at hOther
  cases hOther
  exact ⟨hInfix, hValue⟩

/-- The captures of an expression whose only group repeats a set. -/
theorem captured_many {s : CharSet} (hGroups : r.groups = [(1, many s)])
    {value : List Char} (h : value ∈ r.firstGroups text) :
    value ≠ [] ∧ value <:+: text ∧ ∀ c ∈ value, s.contains c = true := by
  obtain ⟨hInfix, hValue⟩ := mem_language_of_mem_firstGroups hGroups h
  obtain ⟨hSome, hChars⟩ := mem_language_many hValue
  exact ⟨hSome, hInfix, hChars⟩

end Regex

end SourceSurvey
