import SourceSurvey.Proofs.Context
import SourceSurvey.Proofs.Manifest
import SourceSurvey.Proofs.Summary
import SourceSurvey.Proofs.Survey.Relocation
import SourceSurvey.Proofs.Survey.Run
import SourceSurvey.Proofs.Tag.History
import SourceSurvey.Proofs.Text.Utf8

/-!
The three outputs of a survey tell of the same files: its records, the summary that counts them, and
the context that names some of them.
-/

namespace SourceSurvey

/-- What a summary says of the records and of the texts that they have been made from. -/
structure Summary.Agrees (s : Summary) (records : List Record) (catalog : Catalog)
    (texts : List String) : Prop where
  fileCount : s.fileCount = records.length
  totalLines : s.totalLines = total (records.map (·.lineCount))
  languages : ∀ key n, s.languages.get? key = some n ↔
    ∃ r ∈ records, r.language.name = key ∧ n = records.countP (·.language = r.language)
  languages_total : total (s.languages.entries.map (·.2)) = s.fileCount
  frameworks : ∀ name, name ∈ s.frameworks.keys ↔ ∃ text ∈ texts, name ∈ catalog.detect text

/-- A summary counts what its records say, and has the frameworks of the texts. -/
theorem Summary.agrees_aggregate (disk : Disk) (root : String) (filter : Filter)
    (walked : List String) (records : List Record) (catalog : Catalog) (texts : List String) :
    (aggregate disk root filter walked records (texts.flatMap catalog.detect)).Agrees records
      catalog texts where
  fileCount := rfl
  totalLines := rfl
  languages := by
    intro key n
    simp only [aggregate, get?_histogram_eq_some_iff, List.mem_map, exists_exists_and_eq_and,
      List.count, List.countP_map]
    rfl
  languages_total := (total_histogram _).trans (List.length_map _)
  frameworks := by
    intro name
    simp only [aggregate, NameSet.mem_keys_ofNames, List.mem_flatMap]

namespace Survey

variable {disk : Disk} {root : String} {config : Config} {timestamp : Timestamp} {survey : Survey}

/-- The files that get a record. -/
def recordedFiles (disk : Disk) (rules : Rules) (place : List String) : List Disk.Found :=
  (walk disk rules.filter place).filter fun found => rules.accepts (relativePath found)

/-- In every survey the records, the summary and the context agree: the records are those of the
accepted files that the walk has found, the summary counts them, their lines and languages and has
the frameworks of their texts, and whatever the context names is in one of them. -/
theorem outputs_agree (h : run disk root config timestamp = .ok survey) :
    ∃ place rules, rootPlace disk root = .ok place ∧ Rules.ofConfig config = .ok rules ∧
      survey.records = (recordedFiles disk rules place).map (fun found =>
        rules.record (relativePath found) found.bytes found.modified) ∧
      survey.summary.Agrees survey.records rules.catalog
        ((recordedFiles disk rules place).map fun found => Text.ofBytes found.bytes) ∧
      survey.context.Agrees survey.records survey.summary := by
  obtain ⟨place, rules, hPlace, hRules, rfl⟩ := run_eq_ok_iff.1 h
  refine ⟨place, rules, hPlace, hRules, rfl, ?_, Context.agrees_synthesize _ _ _ _⟩
  have hAgrees := Summary.agrees_aggregate disk (Disk.pathOf place) rules.filter
    ((walk disk rules.filter place).map relativePath)
    ((recordedFiles disk rules place).map fun found =>
      rules.record (relativePath found) found.bytes found.modified)
    rules.catalog ((recordedFiles disk rules place).map fun found => Text.ofBytes found.bytes)
  rw [List.flatMap_map] at hAgrees
  exact hAgrees

/-! ### A service -/

open Disk

/-- A service with one route. -/
def serviceText : String := "from flask import Flask\n@app.route('/a')\n"

/-- The service with a script, a package and a list of dependencies beside it. -/
def serviceWithPackage : Entry :=
  .directory [("app.py", .file (Text.toBytes serviceText) .epoch),
    ("lib", .directory [("x.js", .file [49] .epoch)]),
    ("node_modules", .directory [("x.js", .file [49] .epoch)]),
    ("requirements.txt", .file [102] .epoch)]

def diskOfService : Disk where
  entries := [("repo", serviceWithPackage)]
  wellFormed := by
    simp only [serviceWithPackage, Entry.WellFormed, AllWellFormed]
    decide +kernel

/-- Texts are surveyed too, and no file is too simple to be mentioned. -/
def serviceConfig : Config := { includeTextFiles := true, thresholds := ⟨0, 0, 0⟩ }

/-- The route is tagged, whatever other rules find in the text. -/
theorem endpoint_mem_tag_serviceText {registry : Tag.Registry}
    (h : Tag.registryWith {} = .ok registry) :
    ⟨.endpoint, "/a"⟩ ∈ registry.tag serviceText .python := by
  have hFound : Tag.endpointRules.flatMap (Tag.tagsOf .endpoint serviceText.toList) =
      [⟨.endpoint, "/a"⟩] := by
    decide +kernel
  have hNone : Tag.ExtraRules.rules {} .endpoint = [] := Tag.rules_of_isEmpty rfl
  apply (Tag.endpointTags_prefix h _ _).subset
  rw [Tag.categoryTags, if_pos (by decide), hNone, List.append_nil, Tag.builtinRules, hFound]
  exact List.mem_cons_self

theorem flask_mem_detect_serviceText : "Flask" ∈ Catalog.builtin.detect serviceText := by
  have hOccurs : Catalog.builtin[4].occursIn serviceText = true := by decide +kernel
  exact List.mem_map.2 ⟨_, List.mem_filter.2 ⟨List.getElem_mem _, hOccurs⟩, rfl⟩

/-- A requirement without a version stands for itself. -/
theorem requirement_of_service :
    (Manifest.collect diskOfService (pathOf ["repo"])).get? (Ecosystem.key .pip "f") = some "f" := by
  have hBytes : (diskOfService.find? (Path.join (pathOf ["repo"]) "requirements.txt")).bind
      Entry.bytes? = some [102] := by
    decide +kernel
  have hLoaded : Manifest.loaded diskOfService (pathOf ["repo"]) .pip = [("f", "f")] := by
    rw [Manifest.loaded_eq, Manifest.content?, Ecosystem.manifestName, hBytes]
    decide +kernel
  rw [Manifest.get?_collect, hLoaded]
  decide +kernel

/-- The record of the service has what the context is about: its route, and a score. -/
theorem record_of_service {rules : Rules} (h : Rules.ofConfig serviceConfig = .ok rules) :
    ∃ app, app = rules.record "app.py" (Text.toBytes serviceText) .epoch ∧ app.path = "app.py" ∧
      app.language = .python ∧ ⟨.endpoint, "/a"⟩ ∈ app.tags ∧ app.tags.length ≤ 10 ∧
      0 < app.complexity := by
  have hLanguage : Language.ofPath "app.py" = .python := by decide +kernel
  have hTags : (rules.record "app.py" (Text.toBytes serviceText) .epoch).tags =
      rules.registry.tag serviceText .python := by
    rw [← hLanguage]
    exact congrArg (rules.registry.tag · _) (Text.ofBytes_toBytes serviceText)
  have hScore : (rules.record "app.py" (Text.toBytes serviceText) .epoch).complexity =
      Complexity.score serviceText :=
    congrArg Complexity.score (Text.ofBytes_toBytes serviceText)
  refine ⟨_, rfl, rfl, hLanguage, ?_, ?_, ?_⟩
  · rw [hTags]
    exact endpoint_mem_tag_serviceText (Rules.ofConfig_eq_ok_iff.1 h).2.1
  · rw [hTags]
    exact Tag.Registry.length_tag_le _ _ _
  · rw [hScore]
    decide +kernel

theorem context_eq_synthesize (disk : Disk) (place : List String) (rules : Rules)
    (thresholds : Thresholds) (timestamp : Timestamp) :
    (ofPlace disk place rules thresholds timestamp).context =
      Context.synthesize (ofPlace disk place rules thresholds timestamp).records
        (ofPlace disk place rules thresholds timestamp).summary thresholds timestamp := rfl

/-- Of a service with three files all have records, and its framework, its requirement, its route and
the file with the route are named where they belong. -/
theorem outputs_agree_program : ∃ survey,
    run diskOfService "/repo" serviceConfig .epoch = .ok survey ∧
      survey.summary.Agrees survey.records Catalog.builtin [serviceText, "1", "f"] ∧
      survey.context.Agrees survey.records survey.summary ∧
      survey.records.map (·.path) = ["app.py", "lib/x.js", "requirements.txt"] ∧
      "Flask" ∈ survey.summary.frameworks.keys ∧
      survey.summary.dependencies.get? "pip:f" = some "f" ∧
      "app.py" ∈ survey.context.criticalFiles ∧
      ⟨"/a", "app.py", .python⟩ ∈ survey.context.endpoints := by
  have hPlace : rootPlace diskOfService "/repo" = .ok ["repo"] := by decide +kernel
  obtain ⟨rules, hRules, hFilter, hCatalog, hInclude⟩ : ∃ rules,
      Rules.ofConfig serviceConfig = .ok rules ∧ rules.filter = plainFilter ∧
        rules.catalog = Catalog.builtin ∧ rules.includeTextFiles = true :=
    ⟨_, rfl, rfl, rfl, rfl⟩
  have hRun : run diskOfService "/repo" serviceConfig .epoch =
      .ok (ofPlace diskOfService ["repo"] rules ⟨0, 0, 0⟩ .epoch) := run_of_rules hPlace hRules
  obtain ⟨place, rules', hPlace', hRules', hRecords, hSummary, hContext⟩ := outputs_agree hRun
  cases hPlace.symm.trans hPlace'
  cases hRules.symm.trans hRules'
  have hFiles : (recordedFiles diskOfService rules ["repo"]).map (fun found =>
      (relativePath found, found.bytes, found.modified)) =
        [("app.py", Text.toBytes serviceText, .epoch), ("lib/x.js", [49], .epoch),
          ("requirements.txt", [102], .epoch)] := by
    simp only [recordedFiles, Rules.accepts, hFilter, hInclude]
    decide +kernel
  have hTexts : (recordedFiles diskOfService rules ["repo"]).map
      (fun found => Text.ofBytes found.bytes) = [serviceText, "1", "f"] := by
    have hMapped := congrArg (List.map fun file => Text.ofBytes file.2.1) hFiles
    rw [List.map_map, List.map_cons, Text.ofBytes_toBytes] at hMapped
    exact hMapped
  obtain ⟨app, hApp, hPath, hLanguage, hTag, hFew, hScore⟩ := record_of_service hRules
  have hThree : (ofPlace diskOfService ["repo"] rules ⟨0, 0, 0⟩ .epoch).records =
      [app, rules.record "lib/x.js" [49] .epoch, rules.record "requirements.txt" [102] .epoch] := by
    have hMapped := congrArg (List.map fun file => rules.record file.1 file.2.1 file.2.2) hFiles
    rw [List.map_map, List.map_cons, ← hApp] at hMapped
    exact hRecords.trans hMapped
  rw [hTexts, hCatalog] at hSummary
  refine ⟨_, hRun, hSummary, hContext, ?_, ?_, requirement_of_service, ?_, ?_⟩
  · rw [hThree, List.map_cons, hPath]
    rfl
  · exact (hSummary.frameworks _).2 ⟨serviceText, List.mem_cons_self, flask_mem_detect_serviceText⟩
  · rw [context_eq_synthesize, hThree, ← hPath]
    exact Context.path_mem_criticalFiles (by simp [Context.maxCriticalFiles]) List.mem_cons_self
      hScore _
  · rw [context_eq_synthesize, hThree, ← hPath, ← hLanguage]
    exact Context.mem_sourcedTags_cons hTag (hFew.trans (by decide))

end Survey

end SourceSurvey
