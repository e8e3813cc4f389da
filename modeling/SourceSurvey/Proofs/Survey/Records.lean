import SourceSurvey.Proofs.Complexity
import SourceSurvey.Proofs.Extraction
import SourceSurvey.Proofs.Survey.Relocation
import SourceSurvey.Proofs.Survey.Rules
import SourceSurvey.Proofs.Survey.Run
import SourceSurvey.Proofs.Survey.Walk
import SourceSurvey.Proofs.Tag

/-!
What holds of every record of every survey. Each stage that adds to a record has its own bounds and
its own way to fail, and the parts of a record fit together all the same. Names that are no texts are
outside of two of the rules: they are not looked at by the filter, and their paths may be shared.
-/

namespace SourceSurvey

open Disk (IsName)
open PathText (text? shown)

/-- The record of a file with these names and bytes, in a survey with these settings. -/
structure Record.Sound (config : Config) (names : List String) (bytes : List UInt8) (r : Record) :
    Prop where
  path_ne_empty : r.path ≠ ""
  path_eq : r.path = "/".intercalate names
  pieces_path : Path.pieces r.path = names
  language : r.language = Language.ofPath r.path
  fileType : r.fileType = "" ∨ ∃ ext, r.fileType = "." ++ ext ∧ '.' ∉ ext.toList ∧
    r.fileType.toList <:+ r.path.toList
  text_included : r.language = .text → config.includeTextFiles = true
  parsed_iff : r.status = .parsed ∨ r.status = .parseFailed ↔ r.language = .python ∨
    r.language = .javascript ∨ r.language = .typescript ∨ r.language = .react
  unsupported_iff : r.status = .unsupported ↔ r.language = .text
  heuristic_iff : r.status = .heuristic ↔ ¬r.language.HasGrammar ∧ r.language ≠ .text
  bare : r.status = .parseFailed ∨ r.status = .unsupported →
    r.imports = [] ∧ r.types = [] ∧ r.callables = [] ∧ r.exports = []
  first_facts : ∃ all, all = Extraction.allFacts r.path r.language (Text.ofBytes bytes) ∧
    r.imports = all.imports.take 20 ∧ r.types = all.types.take 20 ∧
    r.callables = all.callables.take 20 ∧ r.exports = all.exports.take 20
  facts_bounded : r.imports.length ≤ 20 ∧ r.types.length ≤ 20 ∧ r.callables.length ≤ 20 ∧
    r.exports.length ≤ 20
  tags_bounded : r.tags.length ≤ 10
  components_in_scripts : ∀ t ∈ r.tags, t.category = .uiComponent →
    r.language = .javascript ∨ r.language = .typescript ∨ r.language = .react
  complexity_bounded : r.complexity ≤ 100
  size : r.size = bytes.length
  no_lines_iff : r.lineCount = 0 ↔ r.size = 0

theorem Language.isScript_eq_true_iff {l : Language} :
    l.isScript = true ↔ l = javascript ∨ l = typescript ∨ l = react := by
  cases l <;> simp [isScript]

/-- What is not skipped has a last name that is no text, or neither that name is hidden nor any name
above it is ignored. -/
theorem Filter.of_skips_eq_false {filter : Filter} {names : List RawText} {name : RawText}
    (hNames : ∀ n ∈ names ++ [name], IsName n)
    (h : filter.skips (Path.ofNames (names ++ [name])) = false) {text : String}
    (hText : text? name = some text) : text.startsWith "." = false ∧ text ∉ filter.names := by
  have hBase : Path.fileName? (Path.ofNames (names ++ [name])) = some name := by
    rw [Path.fileName?_ofNames hNames, List.getLast?_concat]
  simp only [skips, hBase, Option.bind_some, hText, Path.components_ofNames hNames,
    Bool.or_eq_false_iff] at h
  obtain ⟨⟨⟨hVisible, _⟩, hIgnored⟩, _⟩ := h
  refine ⟨hVisible, ?_⟩
  intro hFilter
  rw [List.any_map, List.any_eq_false] at hIgnored
  exact hIgnored name (by simp) (by simpa [hText] using hFilter)

/-- No name that is a text is hidden or ignored. -/
def Filter.Clears (ignored : List String) (names : List RawText) : Prop :=
  ∀ name ∈ names, ∀ text ∈ text? name, text.startsWith "." = false ∧ text ∉ ignored

/-- Of a path that is not skipped, and none of whose beginnings is, no name that is a text is hidden
or ignored. -/
theorem Filter.clears_of_kept {filter : Filter} {names : List RawText}
    (hNames : ∀ name ∈ names, IsName name)
    (hKept : ∀ beginning, beginning <+: names → beginning ≠ [] →
      filter.skips (Path.ofNames beginning) = false) : Clears filter.names names := by
  intro name hMem text hText
  obtain ⟨before, behind, rfl⟩ := List.append_of_mem hMem
  have hBeginning : before ++ [name] <+: before ++ name :: behind := ⟨behind, by simp⟩
  exact Filter.of_skips_eq_false (fun n hN => hNames n (hBeginning.subset hN))
    (hKept _ hBeginning (by simp)) hText

/-- A path ends in the type of its file. -/
theorem Path.fileType_suffix {names : List String} (hNames : ∀ name ∈ names, IsName name)
    {ext : String} (h : extension? ("/".intercalate names) = some ext) :
    ("." ++ ext).toList <:+ ("/".intercalate names).toList := by
  obtain ⟨fileName, hName, hSplit⟩ := Option.bind_eq_some_iff.1 h
  have hParts := (eq_of_splitExtension (Prod.ext rfl hSplit)).1
  rw [fileName?_intercalate hNames] at hName
  obtain ⟨before, rfl⟩ := List.getLast?_eq_some_iff.1 hName
  have hLast : fileName.toList <:+ ("/".intercalate (before ++ [fileName])).toList := by
    by_cases hNil : before = []
    · subst hNil
      simp
    · rw [intercalate_concat hNil, String.toList_append]
      exact List.suffix_append _ _
  obtain ⟨stem, hEnd⟩ : ∃ stem, fileName = stem ++ ("." ++ ext) :=
    ⟨_, hParts.trans String.append_assoc⟩
  rw [hEnd, String.toList_append] at hLast
  exact List.IsSuffix.trans (List.suffix_append _ _) (hEnd ▸ hLast)

/-- A text has a record only if this has been asked for. -/
theorem Rules.includeTextFiles_of_accepts {τ : Type} [DecidableEq τ] [PathText τ] {rules : Rules}
    {path : τ} (h : rules.accepts path = true) (hText : Language.ofPath path = .text) :
    rules.includeTextFiles = true := by
  simp only [accepts, hText, Language.isKnown] at h
  simp only [ne_eq, not_true_eq_false, decide_false, Bool.or_false, Bool.and_eq_true] at h
  exact h.2

/-- The facts about a file are those about the path that is shown. -/
theorem Extraction.facts_shown {names : List RawText} (hNames : ∀ name ∈ names, IsName name)
    (content : String) :
    facts ("/".intercalate (names.map shown)) (Language.ofPath (Path.ofNames names)) content =
      facts (Path.ofNames names) (Language.ofPath (Path.ofNames names)) content := by
  have hShown := Path.extension?_shown hNames
  cases hExt : Path.extension? (Path.ofNames names) with
  | none =>
      have hUnknown : Language.ofPath (Path.ofNames names) = .text := by
        simp [Language.ofPath, hExt]
      rw [hUnknown]
      rfl
  | some ext =>
      cases hText : text? ext with
      | none =>
          have hUnknown : Language.ofPath (Path.ofNames names) = .text := by
            simp [Language.ofPath, hExt, hText]
          rw [hUnknown]
          rfl
      | some found =>
          have hSame : Language.extensionOf ("/".intercalate (names.map shown)) =
              Language.extensionOf (Path.ofNames names) := by
            simp [Language.extensionOf, hShown, hExt, hText, RawText.shown_eq_of_text? hText]
          rw [facts, facts, hSame]

section

variable [Regex.Engine]

/-- The type of a file is the end of its path, and empty if the path has no extension. -/
theorem Rules.fileType_record {rules : Rules} {names : List String}
    (hNames : ∀ name ∈ names, IsName name) (bytes : List UInt8) (modified : Timestamp) :
    let r := rules.record ("/".intercalate names) bytes modified
    r.fileType = "" ∨ ∃ ext, r.fileType = "." ++ ext ∧ '.' ∉ ext.toList ∧
      r.fileType.toList <:+ r.path.toList := by
  intro r
  cases hExt : Path.extension? ("/".intercalate names) with
  | none =>
      have hType : r.fileType = "" := by
        simp only [r, record, hExt]
        rfl
      exact .inl hType
  | some ext =>
      have hType : r.fileType = "." ++ ext := by
        simp only [r, record, hExt]
        rfl
      rw [hType]
      exact .inr ⟨ext, rfl, Language.extension?_no_dot hExt, Path.fileType_suffix hNames hExt⟩

/-- The record of a file is that of the path that is shown. -/
theorem Rules.record_shown (rules : Rules) {names : List RawText}
    (hNames : ∀ name ∈ names, IsName name) (bytes : List UInt8) (modified : Timestamp) :
    rules.record (Path.ofNames names) bytes modified =
      rules.record ("/".intercalate (names.map shown)) bytes modified := by
  simp only [record, Path.extension?_shown hNames, Option.map_map, Language.ofPath_shown hNames,
    Extraction.facts_shown hNames, Path.shown_ofNames, PathText.shown_string]
  rfl

variable [Glob.Engine]

/-- The record of a file that is accepted if it is a text in no language. -/
theorem Rules.sound_record {config : Config} {rules : Rules} (hRules : ofConfig config = .ok rules)
    {names : List String} (hNil : names ≠ []) (hNames : ∀ name ∈ names, IsName name)
    (hText : Language.ofPath ("/".intercalate names) = .text → rules.includeTextFiles = true)
    (bytes : List UInt8) (modified : Timestamp) :
    (rules.record ("/".intercalate names) bytes modified).Sound config names bytes := by
  obtain ⟨_, hRegistry, _, hInclude⟩ := ofConfig_eq_ok_iff.1 hRules
  have hFound := Extraction.found_allFacts ("/".intercalate names) (Text.ofBytes bytes)
  have hFacts := Extraction.facts_eq_truncated ("/".intercalate names)
    (Language.ofPath ("/".intercalate names)) (Text.ofBytes bytes)
  exact {
    path_ne_empty := Path.intercalate_ne_empty hNames hNil
    path_eq := rfl
    pieces_path := Path.pieces_intercalate hNames
    language := rfl
    fileType := fileType_record hNames bytes modified
    text_included := fun hLanguage => hInclude ▸ hText hLanguage
    parsed_iff := by
      simp only [record, hFacts]
      exact hFound.parsed_iff
    unsupported_iff := by
      simp only [record, hFacts]
      exact hFound.unsupported_iff
    heuristic_iff := by
      simp only [record, hFacts]
      exact hFound.heuristic_iff
    bare := by
      intro hStatus
      simp only [record, hFacts] at hStatus ⊢
      have hBare := hFound.bare hStatus
      simp [Facts.truncated, hBare.imports, hBare.types, hBare.callables, hBare.exports]
    first_facts := by
      refine ⟨_, rfl, ?_⟩
      simp only [record, hFacts]
      exact ⟨rfl, rfl, rfl, rfl⟩
    facts_bounded := by
      simp only [record, hFacts]
      exact ⟨List.length_take_le _ _, List.length_take_le _ _, List.length_take_le _ _,
        List.length_take_le _ _⟩
    tags_bounded := Tag.Registry.length_tag_le _ _ _
    components_in_scripts := fun t hTag hCategory =>
      Language.isScript_eq_true_iff.1
        (Tag.Registry.isScript_of_mem_tag (Tag.scoped_of_registryWith hRegistry) hTag hCategory)
    complexity_bounded := Complexity.score_le _
    size := rfl
    no_lines_iff := by
      simp only [record, Complexity.lineCount_eq_zero_iff, Text.ofBytes_eq_empty_iff,
        List.length_eq_zero_iff] }

end

namespace Survey

section

variable [Regex.Engine] [Glob.Engine] {disk : Disk RawText} {root : RawText} {config : Config}
  {timestamp : Timestamp} {survey : Survey}

/-- Every survey has one record for each file that is walked and accepted, in order. The record is
sound, and of the names on the way to the file those that are texts are neither hidden nor ignored.
No file has two records, and files all of whose names are texts have records with different paths. -/
theorem records_sound (h : run disk root config timestamp = .ok survey) :
    ∃ place rules files, rootPlace disk root = .ok place ∧ Rules.ofConfig config = .ok rules ∧
      files = (walk disk rules.filter place).filter
        (fun found => rules.accepts (Path.ofNames found.names)) ∧
      List.Forall₂ (fun r found => r.path = relativePath found ∧
          r.Sound config (found.names.map shown) found.bytes ∧
          Filter.Clears (Filter.defaultNames ++ config.ignoreNames) found.names)
        survey.records files ∧
      (files.map (·.names)).Nodup ∧ ((files.filter (Readable ·)).map relativePath).Nodup := by
  obtain ⟨place, rules, hPlace, hRules, rfl⟩ := run_eq_ok_iff.1 h
  obtain ⟨globs, _, hFilter⟩ := Filter.withExtras_eq_ok_iff.1 (Rules.ofConfig_eq_ok_iff.1 hRules).1
  refine ⟨place, rules, _, hPlace, hRules, rfl, ?_, ?_, ?_⟩
  · rw [ofPlace, List.forall₂_map_left_iff, List.forall₂_same]
    intro found hAccepted
    obtain ⟨hWalked, hAccepts⟩ := List.mem_filter.1 hAccepted
    obtain ⟨hNil, _, hKept, _⟩ := Disk.mem_walk_iff.1 hWalked
    have hNames := Disk.isName_of_mem_walk hWalked
    have hText : Language.ofPath ("/".intercalate (found.names.map shown)) = .text →
        rules.includeTextFiles = true := by
      rw [Language.ofPath_shown hNames]
      exact Rules.includeTextFiles_of_accepts hAccepts
    refine ⟨rfl, ?_, ?_⟩
    · rw [Rules.record_shown rules hNames]
      exact Rules.sound_record hRules (by simpa using hNil) (Path.isName_of_mem_shown hNames) hText
        found.bytes found.modified
    · have hClears := Filter.clears_of_kept hNames hKept
      rwa [← hFilter] at hClears
  · exact (walkedNames_nodup disk rules.filter place).sublist (List.filter_sublist.map _)
  · exact (readablePaths_nodup disk rules.filter place).sublist
      ((List.filter_sublist.filter _).map _)

end

/-- Beside a file with a plain name, a hidden one and two others, whose names have a byte that belongs
to no character. -/
def diskOfUnreadable : Disk RawText where
  entries := [(⟨[46, 0xFF, 46, 112, 121]⟩, .file [120] .epoch),
    (⟨[82, 69, 65, 68, 77, 69]⟩, .file [] .epoch),
    (⟨[97, 0xFE, 46, 112, 121]⟩, .file [] .epoch), (⟨[97, 0xFF, 46, 112, 121]⟩, .file [] .epoch)]
  wellFormed := by
    simp only [Disk.Entry.WellFormed, Disk.AllWellFormed]
    decide +kernel

theorem records_of_unreadable : ∃ survey,
    run diskOfUnreadable ⟨[0x2F]⟩ { includeTextFiles := true } .epoch = .ok survey ∧
      survey.records.map (·.path) = [".\ufffd.py", "README", "a\ufffd.py", "a\ufffd.py"] := by
  have hPlace : rootPlace diskOfUnreadable ⟨[0x2F]⟩ = .ok [] := by decide +kernel
  obtain ⟨rules, hRules, hFilter, hInclude⟩ : ∃ rules,
      Rules.ofConfig { includeTextFiles := true } = .ok rules ∧ rules.filter = plainFilter ∧
        rules.includeTextFiles = true :=
    ⟨_, rfl, rfl, rfl⟩
  have hAccepted : ((walk diskOfUnreadable rules.filter []).filter fun found =>
      rules.accepts (Path.ofNames found.names)).map relativePath =
        [".\ufffd.py", "README", "a\ufffd.py", "a\ufffd.py"] := by
    simp only [Rules.accepts, hFilter, hInclude]
    decide +kernel
  refine ⟨_, run_of_rules hPlace hRules, ?_⟩
  rw [ofPlace, List.map_map]
  exact hAccepted

/-- Neither is a hidden file left out if its name is no text, nor do the paths of such files differ. -/
theorem unreadable_not_sound : ∃ survey,
    run diskOfUnreadable ⟨[0x2F]⟩ { includeTextFiles := true } .epoch = .ok survey ∧
      ¬(survey.records.map (·.path)).Nodup ∧
      ∃ r ∈ survey.records, ∃ name ∈ Path.pieces r.path, name.startsWith "." = true := by
  obtain ⟨survey, hRun, hPaths⟩ := records_of_unreadable
  refine ⟨survey, hRun, ?_, ?_⟩
  · rw [hPaths]
    decide
  · have hFirst : ".\ufffd.py" ∈ survey.records.map (·.path) := by simp [hPaths]
    obtain ⟨r, hR, hPath⟩ := List.mem_map.1 hFirst
    refine ⟨r, hR, ".\ufffd.py", ?_, by decide +kernel⟩
    rw [hPath]
    decide +kernel

/-- The file that is a text in no language has a record if texts are included. -/
theorem records_sound_unreadable : ∃ survey,
    run diskOfUnreadable ⟨[0x2F]⟩ { includeTextFiles := true } .epoch = .ok survey ∧
      ∃ r ∈ survey.records, r.path = "README" ∧ r.status = .unsupported ∧ ∃ names bytes,
        r.Sound { includeTextFiles := true } names bytes := by
  obtain ⟨survey, hRun, hPaths⟩ := records_of_unreadable
  obtain ⟨_, _, files, _, _, _, hEach, _, _⟩ := records_sound hRun
  have hText : "README" ∈ survey.records.map (·.path) := by simp [hPaths]
  obtain ⟨r, hR, hPath⟩ := List.mem_map.1 hText
  obtain ⟨i, rfl⟩ := List.mem_iff_get.1 hR
  obtain ⟨hLength, hEach⟩ := List.forall₂_iff_get.1 hEach
  obtain ⟨_, hSound, _⟩ := hEach i i.2 (hLength ▸ i.2)
  have hLanguage : (survey.records.get i).language = .text := by
    rw [hSound.language, hPath]
    decide +kernel
  exact ⟨survey, hRun, _, hR, hPath, hSound.unsupported_iff.2 hLanguage, _, _, hSound⟩

end Survey

end SourceSurvey
