import SourceSurvey.Proofs.Survey.Records

/-!
What settings can do to a survey. The more names and patterns are left out, the fewer files are
walked, and nothing new appears; texts in no language come and go with the setting that includes them.
-/

namespace SourceSurvey

namespace Filter

/-- Whatever the first filter leaves out, the second leaves out as well. -/
structure Within (filter filter' : Filter) : Prop where
  names : filter.names ⊆ filter'.names
  fileNames : filter.fileNames ⊆ filter'.fileNames
  paths : filter.paths ⊆ filter'.paths

variable {filter filter' : Filter} {path : String}

theorem Within.skips (h : Within filter filter') (hSkips : filter.skips path = true) :
    filter'.skips path = true := by
  rw [Filter.skips_def] at hSkips ⊢
  cases hBase : Path.fileName? path with
  | none => simp [hBase] at hSkips
  | some base =>
      simp only [hBase, Bool.or_eq_true, List.any_eq_true] at hSkips ⊢
      rcases hSkips with ((hHidden | ⟨glob, hGlob, hMatch⟩) | ⟨part, hPart, hName⟩) |
        ⟨glob, hGlob, hMatch⟩
      · exact .inl (.inl (.inl hHidden))
      · exact .inl (.inl (.inr ⟨glob, h.fileNames hGlob, hMatch⟩))
      · refine .inl (.inr ⟨part, hPart, ?_⟩)
        cases part with
        | name n => exact List.contains_iff_mem.2 (h.names (List.contains_iff_mem.1 hName))
        | root => cases hName
        | current => cases hName
        | parent => cases hName
      · exact .inr ⟨glob, h.paths hGlob, hMatch⟩

theorem Within.kept (h : Within filter filter') (hKept : filter'.skips path = false) :
    filter.skips path = false := by
  rw [Bool.eq_false_iff] at hKept ⊢
  exact fun hSkips => hKept (h.skips hSkips)

/-- More names and patterns give a filter that leaves out more. -/
theorem within_of_withExtras {names names' paths paths' : List String}
    (h : withExtras names paths = .ok filter) (h' : withExtras names' paths' = .ok filter')
    (hNames : names ⊆ names') (hPaths : paths ⊆ paths') : Within filter filter' := by
  obtain ⟨globs, hGlobs, rfl⟩ := withExtras_eq_ok_iff.1 h
  obtain ⟨globs', hGlobs', rfl⟩ := withExtras_eq_ok_iff.1 h'
  refine ⟨?_, List.Subset.refl _, ?_⟩
  · exact List.append_subset.2 ⟨List.subset_append_left _ _,
      List.Subset.trans hNames (List.subset_append_right _ _)⟩
  · intro glob hGlob
    obtain ⟨pattern, hPattern, hParse⟩ :=
      Except.exists_of_mem_of_mapM_eq_ok (Glob.parseSet_eq_ok_iff.1 hGlobs).1 hGlob
    exact Except.mem_of_mapM_eq_ok (Glob.parseSet_eq_ok_iff.1 hGlobs').1 (hPaths hPattern) hParse

end Filter

namespace Survey

open Disk
open scoped List

variable {disk : Disk} {place : List String} {filter filter' : Filter} {root : String}
  {config config' : Config} {timestamp : Timestamp} {survey survey' : Survey} {rules rules' : Rules}
  {thresholds : Thresholds}

/-- Of the files of a walk, a filter that leaves out more keeps those of which it skips no beginning. -/
theorem mem_walk_iff_of_within (h : filter.Within filter') {found : Found} :
    found ∈ walk disk filter' place ↔ found ∈ walk disk filter place ∧
      Kept (fun names => filter'.skips ("/".intercalate names)) found.names := by
  rw [mem_walk_iff, mem_walk_iff]
  constructor
  · intro hFound
    obtain ⟨hNil, hFile, hKept, hStraight⟩ := hFound
    exact ⟨⟨hNil, hFile, fun beginning hPrefix hBeginning =>
      h.kept (hKept beginning hPrefix hBeginning), hStraight⟩, hKept⟩
  · intro hFound
    obtain ⟨⟨hNil, hFile, _, hStraight⟩, hKept⟩ := hFound
    exact ⟨hNil, hFile, hKept, hStraight⟩

/-- A wider filter leaves fewer files, in the same order. -/
theorem walk_sublist (h : filter.Within filter') :
    walk disk filter' place <+ walk disk filter place := by
  classical
  have hOrder := walk_pairwise disk filter place
  have hSame : walk disk filter' place = (walk disk filter place).filter fun found =>
      Kept (fun names => filter'.skips ("/".intercalate names)) found.names := by
    apply eq_of_mem_iff (walk_pairwise disk filter' place) (hOrder.sublist List.filter_sublist)
    intro found
    rw [List.mem_filter, decide_eq_true_iff, mem_walk_iff_of_within h]
  rw [hSame]
  exact List.filter_sublist

/-- And fewer entry points. -/
theorem entryPoints_sublist (h : filter.Within filter') (disk : Disk) (root : String) :
    Probe.entryPoints disk root filter' <+ Probe.entryPoints disk root filter := by
  apply List.monotone_filter_right
  intro path hNamed
  simp only [Bool.and_eq_true, Bool.not_eq_true'] at hNamed ⊢
  exact ⟨h.kept hNamed.1, hNamed.2⟩

/-- Of the files that are walked, those get a record whose language is known, unless all do. -/
theorem accepts_of_mem_walk {found : Found} (h : found ∈ walk disk rules.filter place) :
    rules.accepts (relativePath found) =
      (rules.includeTextFiles || (Language.ofPath (relativePath found)).isKnown) := by
  obtain ⟨hNil, _, hKept, _⟩ := mem_walk_iff.1 h
  rw [Rules.accepts, relativePath_def, hKept _ List.prefix_rfl hNil]
  rfl

/-- The records of the files that are walked, known languages only unless texts are included. The
walk has seen to what is skipped. -/
theorem records_eq_map : (ofPlace disk place rules thresholds timestamp).records =
    ((walk disk rules.filter place).filter fun found =>
      rules.includeTextFiles || (Language.ofPath (relativePath found)).isKnown).map fun found =>
        rules.record (relativePath found) found.bytes found.modified := by
  simp only [ofPlace_def]
  rw [List.filter_congr fun found hFound => accepts_of_mem_walk hFound]

/-- What a survey keeps when more is left out: lists of what it had before, in the same order. A record
is only dropped for a beginning of its path that is newly skipped. -/
structure Narrowed (disk : Disk) (place : List String) (rules rules' : Rules)
    (survey survey' : Survey) : Prop where
  walked : walk disk rules'.filter place <+ walk disk rules.filter place
  records : survey'.records <+ survey.records
  entryPoints : survey'.summary.entryPoints <+ survey.summary.entryPoints
  configPaths : survey'.summary.configPaths <+ survey.summary.configPaths
  dropped : ∀ r ∈ survey.records, r ∉ survey'.records ↔
    ∃ beginning, beginning <+: Path.pieces r.path ∧ beginning ≠ [] ∧
      rules'.filter.skips ("/".intercalate beginning) = true ∧
      rules.filter.skips ("/".intercalate beginning) = false

theorem narrowed_ofPlace (h : rules.filter.Within rules'.filter)
    (hRegistry : rules'.registry = rules.registry)
    (hText : rules'.includeTextFiles = rules.includeTextFiles) :
    Narrowed disk place rules rules' (ofPlace disk place rules thresholds timestamp)
      (ofPlace disk place rules' thresholds timestamp) := by
  have hRecord : rules'.record (τ := String) = rules.record := by
    funext path bytes modified
    rw [Rules.record, Rules.record, hRegistry]
  refine ⟨walk_sublist h, ?_, entryPoints_sublist h _ _, ?_, ?_⟩
  · rw [records_eq_map, records_eq_map, hRecord, hText]
    exact ((walk_sublist h).filter _).map _
  · exact ((walk_sublist h).map _).filter _
  · intro r hR
    rw [records_eq_map] at hR
    obtain ⟨found, hFound, rfl⟩ := List.mem_map.1 hR
    obtain ⟨hWalked, hLanguage⟩ := List.mem_filter.1 hFound
    obtain ⟨_, _, hKept, _⟩ := mem_walk_iff.1 hWalked
    have hStays : rules.record (relativePath found) found.bytes found.modified ∈
        (ofPlace disk place rules' thresholds timestamp).records ↔
        Kept (fun names => rules'.filter.skips ("/".intercalate names)) found.names := by
      rw [records_eq_map, hRecord, hText, List.mem_map]
      constructor
      · intro hStill
        obtain ⟨other, hOther, hSame⟩ := hStill
        have hOther := List.mem_of_mem_filter hOther
        rw [← names_eq_of_relativePath_eq hOther hWalked (congrArg Record.path hSame)]
        exact (mem_walk_iff.1 hOther).2.2.1
      · intro hKept'
        have hStill := (mem_walk_iff_of_within h).2 ⟨hWalked, hKept'⟩
        exact ⟨found, List.mem_filter.2 ⟨hStill, hLanguage⟩, rfl⟩
    have hPieces : Path.pieces (rules.record (relativePath found) found.bytes found.modified).path =
        found.names := pieces_relativePath hWalked
    rw [hStays, hPieces, Kept]
    simp only [not_forall, Bool.not_eq_false, exists_prop]
    apply exists_congr
    intro beginning
    apply and_congr_right
    intro hPrefix
    apply and_congr_right
    intro hNil
    exact (and_iff_left (hKept beginning hPrefix hNil)).symm

/-- Without texts the records are those of known languages. -/
theorem records_without_texts : (ofPlace disk place { rules with includeTextFiles := false }
      thresholds timestamp).records =
    (ofPlace disk place { rules with includeTextFiles := true } thresholds timestamp).records.filter
      (·.language ≠ .text) := by
  simp only [records_eq_map, List.filter_map, Bool.false_or, Bool.true_or, List.filter_true]
  rfl

/-- The record of a text in no language is unsupported and has no facts. -/
theorem bare_of_text (hRules : Rules.ofConfig config = .ok rules) {r : Record}
    (hR : r ∈ (ofPlace disk place rules thresholds timestamp).records) (hText : r.language = .text) :
    r.status = .unsupported ∧
      r.imports = [] ∧ r.types = [] ∧ r.callables = [] ∧ r.exports = [] := by
  obtain ⟨found, hAccepted, rfl⟩ := List.mem_map.1 hR
  obtain ⟨hWalked, hAccepts⟩ := List.mem_filter.1 hAccepted
  obtain ⟨hNil, _⟩ := mem_walk_iff.1 hWalked
  have hSound := Rules.sound_record hRules hNil (isName_of_mem_walk hWalked)
    (Rules.includeTextFiles_of_accepts hAccepts) found.bytes found.modified
  have hStatus := hSound.unsupported_iff.2 hText
  exact ⟨hStatus, hSound.bare (.inr hStatus)⟩

/-- With more names and patterns left out, a survey is narrowed and nothing new appears in it. Texts in
no language only add records of their own, in which there is nothing. -/
theorem survey_of_settings (disk : Disk) (root : String) (timestamp : Timestamp) :
    (∀ config config' survey survey', config' = { config with
        ignoreNames := config'.ignoreNames, excludedPaths := config'.excludedPaths } →
      config.ignoreNames ⊆ config'.ignoreNames → config.excludedPaths ⊆ config'.excludedPaths →
      run disk root config timestamp = .ok survey → run disk root config' timestamp = .ok survey' →
      ∃ place rules rules', rootPlace disk root = .ok place ∧ Rules.ofConfig config = .ok rules ∧
        Rules.ofConfig config' = .ok rules' ∧ Narrowed disk place rules rules' survey survey') ∧
    ∀ config survey, run disk root config timestamp = .ok survey →
      ∃ all known, run disk root { config with includeTextFiles := true } timestamp = .ok all ∧
        run disk root { config with includeTextFiles := false } timestamp = .ok known ∧
        known.records = all.records.filter (·.language ≠ .text) ∧
        ∀ r ∈ all.records, r.language = .text → r.status = .unsupported ∧
          r.imports = [] ∧ r.types = [] ∧ r.callables = [] ∧ r.exports = [] := by
  constructor
  · intro config config' survey survey' hSettings hNames hPaths hRun hRun'
    obtain ⟨place, rules, hPlace, hRules, rfl⟩ := run_eq_ok_iff.1 hRun
    obtain ⟨place', rules', hPlace', hRules', rfl⟩ := run_eq_ok_iff.1 hRun'
    cases hPlace.symm.trans hPlace'
    refine ⟨place, rules, rules', hPlace, hRules, hRules', ?_⟩
    obtain ⟨hFilter, hRegistry, _, hText⟩ := Rules.ofConfig_eq_ok_iff.1 hRules
    obtain ⟨hFilter', hRegistry', _, hText'⟩ := Rules.ofConfig_eq_ok_iff.1 hRules'
    have hWithin := Filter.within_of_withExtras hFilter hFilter' hNames hPaths
    rw [hSettings] at hRegistry' hText' ⊢
    exact narrowed_ofPlace hWithin (Except.ok.inj (hRegistry'.symm.trans hRegistry))
      (hText'.symm.trans hText)
  · intro config survey hRun
    obtain ⟨place, rules, hPlace, hRules, rfl⟩ := run_eq_ok_iff.1 hRun
    obtain ⟨hFilter, hRegistry, hCatalog, _⟩ := Rules.ofConfig_eq_ok_iff.1 hRules
    have hAll : Rules.ofConfig { config with includeTextFiles := true } =
        .ok { rules with includeTextFiles := true } :=
      Rules.ofConfig_eq_ok_iff.2 ⟨hFilter, hRegistry, hCatalog, rfl⟩
    have hKnown : Rules.ofConfig { config with includeTextFiles := false } =
        .ok { rules with includeTextFiles := false } :=
      Rules.ofConfig_eq_ok_iff.2 ⟨hFilter, hRegistry, hCatalog, rfl⟩
    exact ⟨_, _, run_of_rules hPlace hAll, run_of_rules hPlace hKnown, records_without_texts,
      fun _ hR => bare_of_text hAll hR⟩

/-- A small program loses its record when a pattern matches it. -/
theorem settings_of_program : ∃ survey survey',
    run diskOfProgram "/repo" {} .epoch = .ok survey ∧
      run diskOfProgram "/repo" { excludedPaths := ["main.py"] } .epoch = .ok survey' ∧
      survey'.records <+ survey.records ∧
      (∃ r ∈ survey.records, r.path = "main.py" ∧ r ∉ survey'.records) ∧
      ∃ all known, run diskOfProgram "/repo" { includeTextFiles := true } .epoch = .ok all ∧
        run diskOfProgram "/repo" { includeTextFiles := false } .epoch = .ok known ∧
        known.records = all.records.filter (·.language ≠ .text) := by
  have hPlace : rootPlace diskOfProgram "/repo" = .ok ["repo"] := by decide +kernel
  obtain ⟨rules, hRules, hFilter, hInclude⟩ : ∃ rules, Rules.ofConfig {} = .ok rules ∧
      rules.filter = plainFilter ∧ rules.includeTextFiles = false :=
    ⟨_, rfl, rfl, rfl⟩
  obtain ⟨rules', hRules', hFilter'⟩ : ∃ rules,
      Rules.ofConfig { excludedPaths := ["main.py"] } = .ok rules ∧
        rules.filter = ⟨Filter.defaultNames, Filter.defaultFileNames, [⟨Glob.plain "main.py"⟩]⟩ :=
    ⟨_, rfl, rfl⟩
  have hRun : run diskOfProgram "/repo" {} .epoch =
      .ok (ofPlace diskOfProgram ["repo"] rules {} .epoch) := run_of_rules hPlace hRules
  have hRun' : run diskOfProgram "/repo" { excludedPaths := ["main.py"] } .epoch =
      .ok (ofPlace diskOfProgram ["repo"] rules' {} .epoch) := run_of_rules hPlace hRules'
  have hRecords : (ofPlace diskOfProgram ["repo"] rules {} .epoch).records.map (·.path) =
      ["main.py"] := by
    simp only [records_eq_map, List.map_map, Function.comp_def, Rules.record, hFilter, hInclude]
    decide +kernel
  have hSkips : "main.py" = "/".intercalate ["main.py"] ∧ Path.pieces "main.py" = ["main.py"] ∧
      plainFilter.skips "main.py" = false ∧ Filter.skips ⟨Filter.defaultNames,
        Filter.defaultFileNames, [⟨Glob.plain "main.py"⟩]⟩ "main.py" = true := by
    decide +kernel
  obtain ⟨hPath, hPieces, hKept, hSkipped⟩ := hSkips
  obtain ⟨hMore, hTexts⟩ := survey_of_settings diskOfProgram "/repo" .epoch
  obtain ⟨place, first, second, _, hFirst, hSecond, hNarrowed⟩ :=
    hMore {} { excludedPaths := ["main.py"] } _ _ rfl (by simp) (by simp) hRun hRun'
  cases hRules.symm.trans hFirst
  cases hRules'.symm.trans hSecond
  obtain ⟨r, hR, hName⟩ := List.mem_map.1 (hRecords ▸ List.mem_singleton_self "main.py")
  have hPieces : Path.pieces r.path = ["main.py"] := hName ▸ hPieces
  have hDropped := (hNarrowed.dropped r hR).2 ⟨["main.py"], hPieces ▸ List.prefix_rfl, by simp,
    by rw [← hPath, hFilter', hSkipped], by rw [← hPath, hFilter, hKept]⟩
  obtain ⟨all, known, hAll, hKnown, hFiltered, _⟩ := hTexts {} _ hRun
  exact ⟨_, _, hRun, hRun', hNarrowed.records, ⟨r, hR, hName, hDropped⟩, all, known, hAll, hKnown,
    hFiltered⟩

end Survey

end SourceSurvey
