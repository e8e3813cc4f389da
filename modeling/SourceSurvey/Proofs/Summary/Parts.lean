import SourceSurvey.Proofs.Context.Views
import SourceSurvey.Proofs.Summary

/-!
Summaries of parts. What a summary says of its records and frameworks does not depend on their order,
and follows from what the summaries of two parts say: counts are added up, sets are united.
-/

namespace SourceSurvey

theorem total_perm {counts counts' : List Nat} (h : counts.Perm counts') :
    total counts = total counts' := by
  induction h with
  | nil => rfl
  | cons n _ ih => rw [total_cons, total_cons, ih]
  | swap n m rest =>
      simp only [total_cons]
      omega
  | trans _ _ ih ih' => exact ih.trans ih'

theorem NameSet.ofNames_perm {names names' : List String} (h : names.Perm names') :
    NameSet.ofNames names = NameSet.ofNames names' := by
  apply Dictionary.eq_of_get?
  intro name
  apply Option.ext
  intro value
  have hKeys : name ∈ (NameSet.ofNames names).keys ↔ name ∈ (NameSet.ofNames names').keys := by
    rw [mem_keys_ofNames, mem_keys_ofNames, h.mem_iff]
  rw [Dictionary.mem_keys_iff, Dictionary.mem_keys_iff] at hKeys
  constructor
  · intro hFound
    exact (hKeys.1 ⟨value, hFound⟩).choose_spec
  · intro hFound
    exact (hKeys.2 ⟨value, hFound⟩).choose_spec

/-! ### Architectures -/

namespace Context

/-- An architecture is hinted at by the path of some record, no matter which. -/
theorem mem_architecturesOf {records : List Record} {label : String} :
    label ∈ architecturesOf records ↔ ∃ hint, (hint, label) ∈ architectureHints ∧
      ∃ r ∈ records, containsText hint (Text.lower r.path) = true := by
  simp only [architecturesOf, List.mem_map, List.mem_filter, List.any_map, List.any_eq_true,
    Function.comp_apply, Prod.exists, exists_eq_right]

/-- The labels come in the order of the hints. -/
theorem architecturesOf_eq_filter (records : List Record) : architecturesOf records =
    (architectureHints.map (·.2)).filter fun label => label ∈ architecturesOf records := by
  have hOnce : ∀ entry ∈ architectureHints, ∀ entry' ∈ architectureHints,
      entry.2 = entry'.2 → entry = entry' := by decide
  have hSame : ∀ entry ∈ architectureHints, ((records.map fun r => Text.lower r.path).any
      (containsText entry.1) = true ↔ entry.2 ∈ architecturesOf records) := by
    intro entry hEntry
    rw [mem_architecturesOf, List.any_map, List.any_eq_true]
    constructor
    · exact fun hFound => ⟨entry.1, hEntry, hFound⟩
    · rintro ⟨hint, hHint, hFound⟩
      have hEntries := hOnce entry hEntry (hint, entry.2) hHint rfl
      rwa [show entry.1 = hint from congrArg Prod.fst hEntries]
  rw [List.filter_map]
  conv_lhs => rw [architecturesOf]
  apply congrArg (List.map Prod.snd)
  refine List.filter_congr fun entry hEntry => ?_
  rw [Bool.eq_iff_iff, hSame entry hEntry, Function.comp_apply, decide_eq_true_eq]

theorem architecturesOf_perm {records records' : List Record} (h : records.Perm records') :
    architecturesOf records = architecturesOf records' := by
  rw [architecturesOf_eq_filter records, architecturesOf_eq_filter records']
  refine List.filter_congr fun label _ => ?_
  simp only [decide_eq_decide, mem_architecturesOf, h.mem_iff]

/-- Records of two parts hint at what those of one of the parts hint at. -/
theorem architecturesOf_append (xs ys : List Record) : architecturesOf (xs ++ ys) =
    (architectureHints.map (·.2)).filter fun label =>
      label ∈ architecturesOf xs ∨ label ∈ architecturesOf ys := by
  rw [architecturesOf_eq_filter]
  refine List.filter_congr fun label _ => ?_
  simp only [decide_eq_decide, mem_architecturesOf, List.mem_append, or_and_right, exists_or,
    and_or_left]

end Context

/-! ### Languages -/

namespace Report

/-- The languages by their counts, the largest first, and those with the same count by name. -/
def languageRanking (s : Summary) : List (String × Nat) := ranked (·.2) s.languages.entries

/-- Languages are ranked by their counts, and those with the same count by name. -/
theorem languageRanking_pairwise (s : Summary) : (languageRanking s).Pairwise fun a b =>
    b.2 < a.2 ∨ a.2 = b.2 ∧ a.1 < b.1 :=
  pairwise_ranked (·.2) s.languages.sorted

/-- The languages stand in the sixth line of an overview. -/
theorem overview_eq_languages (records : List Record) (s : Summary) (threshold : Nat) :
    ∃ before behind, before.length = 5 ∧ overview records s threshold =
      ofLines (before ++ ("- **Primary Languages**: " ++ ", ".intercalate
        (((languageRanking s).take 5).map fun e => languageCount e.1 e.2)) :: behind) :=
  ⟨(overviewLines records s threshold).take 5, (overviewLines records s threshold).drop 6, rfl, rfl⟩

end Report

namespace Summary

/-- What a summary of two parts says, from what the summaries of the parts say. -/
structure Joins (s₁ s₂ s : Summary) : Prop where
  fileCount : s.fileCount = s₁.fileCount + s₂.fileCount
  totalLines : s.totalLines = s₁.totalLines + s₂.totalLines
  languages : ∀ key, s.languages.get? key =
    Option.merge (· + ·) (s₁.languages.get? key) (s₂.languages.get? key)
  frameworks : ∀ name, name ∈ s.frameworks.keys ↔ name ∈ s₁.frameworks.keys ∨ name ∈ s₂.frameworks.keys

variable (disk : Disk) (root : String) (filter : Filter) (walked : List String)

/-- A summary does not depend on the order of the records. -/
theorem aggregate_perm {records records' : List Record} {frameworks frameworks' : List String}
    (hRecords : records.Perm records') (hFrameworks : frameworks.Perm frameworks') :
    aggregate disk root filter walked records frameworks =
      aggregate disk root filter walked records' frameworks' := by
  simp only [aggregate, hRecords.length_eq, total_perm (hRecords.map _),
    histogram_perm (hRecords.map _), NameSet.ofNames_perm hFrameworks]

/-- The summary of two parts is joined from theirs. -/
theorem joins_aggregate (xs ys : List Record) (names names' : List String) :
    Joins (aggregate disk root filter walked xs names) (aggregate disk root filter walked ys names')
      (aggregate disk root filter walked (xs ++ ys) (names ++ names')) where
  fileCount := List.length_append
  totalLines := by simp only [aggregate, List.map_append, total_append]
  languages := by
    intro key
    simp only [aggregate, List.map_append]
    exact get?_histogram_append _ _ key
  frameworks := by
    intro name
    simp only [aggregate, NameSet.mem_keys_ofNames, List.mem_append]

/-- Summaries and architectures do not depend on the order of records and frameworks, and those of
two parts are put together from those of the parts. The languages in the overview are the first five
by count and then by name, in whatever order the records have come. -/
theorem aggregate_of_parts :
    (∀ records records' frameworks frameworks', records.Perm records' →
      frameworks.Perm frameworks' →
      aggregate disk root filter walked records frameworks =
          aggregate disk root filter walked records' frameworks' ∧
        Context.architecturesOf records = Context.architecturesOf records') ∧
    (∀ xs ys names names',
      Joins (aggregate disk root filter walked xs names) (aggregate disk root filter walked ys names')
          (aggregate disk root filter walked (xs ++ ys) (names ++ names')) ∧
        Context.architecturesOf (xs ++ ys) = (Context.architectureHints.map (·.2)).filter
          fun label => label ∈ Context.architecturesOf xs ∨ label ∈ Context.architecturesOf ys) ∧
    ∀ records frameworks, ∃ order : List (String × Nat),
      order.Perm (aggregate disk root filter walked records frameworks).languages.entries ∧
      (order.Pairwise fun a b => b.2 < a.2 ∨ a.2 = b.2 ∧ a.1 < b.1) ∧
      ∀ records' frameworks' threshold, records.Perm records' → frameworks.Perm frameworks' →
        ∃ before behind, before.length = 5 ∧ Report.overview records'
            (aggregate disk root filter walked records' frameworks') threshold =
          Report.ofLines (before ++ ("- **Primary Languages**: " ++ ", ".intercalate
            ((order.take 5).map fun e => Report.languageCount e.1 e.2)) :: behind) := by
  refine ⟨fun records records' frameworks frameworks' hRecords hFrameworks => ?_,
    fun xs ys names names' => ?_, fun records frameworks => ?_⟩
  · exact ⟨aggregate_perm disk root filter walked hRecords hFrameworks,
      Context.architecturesOf_perm hRecords⟩
  · exact ⟨joins_aggregate disk root filter walked xs ys names names',
      Context.architecturesOf_append xs ys⟩
  · refine ⟨_, ranked_perm _ _, Report.languageRanking_pairwise _, ?_⟩
    intro records' frameworks' threshold hRecords hFrameworks
    rw [← aggregate_perm disk root filter walked hRecords hFrameworks]
    exact Report.overview_eq_languages records' _ threshold

theorem aggregate_of_parts_reversed :
    let records := [Record.ofEmptyFile "models/a.py" .python, Record.ofEmptyFile "b.rs" .rust,
      Record.ofEmptyFile "c.py" .python]
    let summary := aggregate Disk.empty "/p" ⟨[], [], []⟩ []
    records.Perm records.reverse ∧ ["Vue", "React"].Perm ["React", "Vue"] ∧
      summary records ["Vue", "React"] = summary records.reverse ["React", "Vue"] ∧
      Context.architecturesOf records = Context.architecturesOf records.reverse ∧
      (summary records ["Vue", "React"]).languages.entries = [("python", 2), ("rust", 1)] ∧
      ∃ before behind, before.length = 5 ∧
        Report.overview records.reverse (summary records.reverse ["React", "Vue"]) 0 =
          Report.ofLines (before ++
            "- **Primary Languages**: python (2 files), rust (1 files)" :: behind) := by
  intro records summary
  obtain ⟨hOrder, _, hLanguages⟩ := aggregate_of_parts Disk.empty "/p" ⟨[], [], []⟩ []
  have hRecords : records.Perm records.reverse := (List.reverse_perm records).symm
  have hFrameworks : ["Vue", "React"].Perm ["React", "Vue"] := .swap _ _ _
  obtain ⟨hSummary, hArchitectures⟩ := hOrder _ _ _ _ hRecords hFrameworks
  have hEntries : (summary records ["Vue", "React"]).languages.entries =
      [("python", 2), ("rust", 1)] := by decide +kernel
  obtain ⟨order, hPerm, hSorted, hOverview⟩ := hLanguages records ["Vue", "React"]
  refine ⟨hRecords, hFrameworks, hSummary, hArchitectures, hEntries, ?_⟩
  change order.Perm (summary records ["Vue", "React"]).languages.entries at hPerm
  rw [hEntries] at hPerm
  obtain rfl : order = [("python", 2), ("rust", 1)] := by
    refine hPerm.eq_of_pairwise (fun a b _ _ hLess hMore => ?_) hSorted (by simp)
    exfalso
    rcases hLess with hLess | ⟨hSame, hLess⟩ <;> rcases hMore with hMore | ⟨hSame', hMore⟩
    · omega
    · omega
    · omega
    · exact String.lt_asymm hLess hMore
  exact hOverview _ _ 0 hRecords hFrameworks

end Summary

end SourceSurvey
