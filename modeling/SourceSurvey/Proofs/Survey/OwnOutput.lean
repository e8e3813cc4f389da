import SourceSurvey.Proofs.Report.Artifacts
import SourceSurvey.Proofs.Survey.Locality
import SourceSurvey.Proofs.Survey.Narrative

/-!
A survey of a project into which the files of an earlier survey have been written. The only one of
them that is seen is the narrative, as one more document; once it is there, writing the files again
changes nothing.
-/

namespace SourceSurvey

open Disk (IsName)

theorem Path.extension?_intercalate_concat {names : List String} {name : String}
    (h : ∀ n ∈ names ++ [name], IsName n) :
    extension? ("/".intercalate (names ++ [name])) = (splitExtension name).2 := by
  rw [extension?, fileName?_intercalate h, List.getLast?_concat]
  rfl

theorem Probe.baseName_intercalate_concat {names : List String} {name : String} (h : IsName name) :
    baseName ("/".intercalate (names ++ [name])) = name := by
  have hName : Path.split '/' name = [name] := by
    rw [Path.split, List.splitOn_eq_singleton h.slash_not_mem]
    simp
  by_cases hNil : names = []
  · rw [hNil, List.nil_append, String.intercalate_singleton, baseName, hName]
    rfl
  · have hSlash : ("/".intercalate names ++ "/" ++ name).toList =
        ("/".intercalate names).toList ++ '/' :: name.toList := by
      simp
    rw [Path.intercalate_concat hNil, baseName, Path.split, hSlash,
      List.splitOn_append_cons_self, List.map_append, ← Path.split, ← Path.split, hName,
      List.getLastD_concat]

namespace Report

/-- The names lead to a file that a survey leaves behind in some directory. -/
def IsArtifact (names : List String) : Prop :=
  ∃ before, ∃ name ∈ artifactNames, names = before ++ [name] ∧ ∀ n ∈ before, IsName n

variable {names : List String}

/-- Artifacts are texts to a survey, of no known language. -/
theorem IsArtifact.isKnown (h : IsArtifact names) :
    (Language.ofPath ("/".intercalate names)).isKnown = false := by
  have hAll : ∀ name ∈ artifactNames,
      (((Path.splitExtension name).2.map Language.ofExtension).getD .text).isKnown = false := by
    decide +kernel
  obtain ⟨before, name, hName, rfl, hBefore⟩ := h
  rw [Language.ofPath_def, Path.extension?_intercalate_concat]
  · exact hAll name hName
  · exact List.forall_mem_append.2 ⟨hBefore, by simpa using isName_of_mem_artifactNames hName⟩

/-- They have no names of settings. -/
theorem IsArtifact.not_config (h : IsArtifact names) :
    (Probe.configNames.any (·.isMatch (Language.lowered (Probe.baseName ("/".intercalate names))))) =
      false := by
  have hAll : ∀ name ∈ artifactNames,
      Probe.configNames.any (·.isMatch (Language.lowered name)) = false := by
    decide +kernel
  obtain ⟨before, name, hName, rfl, _⟩ := h
  rw [Probe.baseName_intercalate_concat (isName_of_mem_artifactNames hName)]
  exact hAll name hName

/-- They are no entry points. -/
theorem IsArtifact.not_entryPoint (h : IsArtifact names) :
    "/".intercalate names ∉ Probe.entryPointCandidates := by
  have hAll : ∀ name ∈ artifactNames, ∀ path ∈ Probe.entryPointCandidates,
      Probe.baseName path ≠ name := by
    decide +kernel
  obtain ⟨before, name, hName, rfl, _⟩ := h
  intro hCandidate
  exact hAll name hName _ hCandidate
    (Probe.baseName_intercalate_concat (isName_of_mem_artifactNames hName))

/-- No manifest is an artifact. -/
theorem not_isArtifact_manifest (e : Ecosystem) : ¬IsArtifact [e.manifestName] := by
  rintro ⟨before, name, hName, hNames, _⟩
  have hAll : ∀ name ∈ artifactNames, ∀ e ∈ Ecosystem.all, e.manifestName ≠ name := by
    decide
  obtain ⟨_, hLast⟩ := List.append_inj' (show [] ++ [e.manifestName] = before ++ [name] from hNames) rfl
  exact hAll name hName e (by cases e <;> simp [Ecosystem.all]) (by simpa using hLast)

/-- Of the files that a survey leaves behind, only the narrative is a document. -/
theorem IsArtifact.eq_narrative (h : IsArtifact names) (hDoc : Probe.isDoc ("/".intercalate names)) :
    ∃ before, names = before ++ ["ai_summary.md"] := by
  have hAll : ∀ name ∈ artifactNames,
      (Path.extension? name).map Language.lowered = some "md" → name = "ai_summary.md" := by
    decide +kernel
  obtain ⟨before, name, hName, rfl, _⟩ := h
  rw [Probe.isDoc, Probe.baseName_intercalate_concat (isName_of_mem_artifactNames hName),
    decide_eq_true_iff] at hDoc
  exact ⟨before, by rw [hAll name hName hDoc]⟩

theorem narrative_mem_artifacts (survey : Survey) (summaryOnly : Bool) :
    ("ai_summary.md", narrative survey.context) ∈ artifacts survey summaryOnly :=
  List.mem_append_right _ (List.mem_singleton_self _)

end Report

namespace Survey

open Disk
open Report (IsArtifact artifactNames artifacts)

variable {disk disk' : Disk} {place names : List String} {tree tree' : Entry} {rules : Rules}
  {thresholds : Thresholds} {timestamp now : Timestamp} {survey : Survey} {summaryOnly : Bool}
  {root : String} {config : Config}

/-- The names of the files that a survey leaves behind in a directory. -/
def outputs (names : List String) : List (List String) := artifactNames.map fun name => names ++ [name]

/-- At a place of two disks there are trees without links that have the same files, except perhaps
for those of a survey in one directory. -/
structure AlikeBut (names place : List String) (disk disk' : Disk) (tree tree' : Entry) : Prop where
  isName : ∀ n ∈ names, IsName n
  directory : disk.IsDirectoryAt place
  directory' : disk'.IsDirectoryAt place
  found : disk.root.at? place = some tree
  found' : disk'.root.at? place = some tree'
  linkFree : tree.LinkFree
  linkFree' : tree'.LinkFree
  agree : tree.AgreeBut (outputs names) tree'

theorem AlikeBut.isArtifact (h : AlikeBut names place disk disk' tree tree') :
    ∀ q ∈ outputs names, IsArtifact q := by
  intro q hQ
  obtain ⟨name, hName, rfl⟩ := List.mem_map.1 hQ
  exact ⟨names, name, hName, rfl, h.isName⟩

/-- Two surveys differ at most in the documents that they name. -/
structure SameButDocs (survey survey' : Survey) : Prop where
  records : survey'.records = survey.records
  summary : survey'.summary = { survey.summary with docPaths := survey'.summary.docPaths }

/-- A survey without texts sees of the files of an earlier one at most a document. -/
theorem AlikeBut.sameButDocs (h : AlikeBut names place disk disk' tree tree')
    (hText : rules.includeTextFiles = false) :
    SameButDocs (ofPlace disk place rules thresholds timestamp)
      (ofPlace disk' place rules thresholds timestamp) := by
  have hAccepted := @filter_walk_eq _ _ _ _ _ _ _ h.found h.found' h.linkFree h.linkFree' h.agree
    rules.filter rules.accepts (by
      intro q hQ _
      simp [Rules.accepts, hText, (h.isArtifact q hQ).isKnown])
  have hEntryPoints := entryPoints_eq h.directory h.directory' h.found h.found' h.linkFree h.linkFree'
    h.agree (fun q hQ => (h.isArtifact q hQ).not_entryPoint) rules.filter
  have hConfig : Probe.configPaths (walkedPaths disk rules.filter place) =
      Probe.configPaths (walkedPaths disk' rules.filter place) :=
    filter_walkedPaths_eq h.found h.found' h.linkFree h.linkFree' h.agree
      fun q hQ => (h.isArtifact q hQ).not_config
  have hManifests := manifests_eq h.agree fun e hMem =>
    Report.not_isArtifact_manifest e (h.isArtifact _ hMem)
  have hDependencies : Manifest.collect disk (pathOf place) = Manifest.collect disk' (pathOf place) := by
    rw [collect_pathOf h.directory h.found h.linkFree, collect_pathOf h.directory' h.found' h.linkFree',
      funext hManifests]
  rw [walkedPaths, walkedPaths] at hConfig
  refine ⟨?_, ?_⟩
  · simp only [ofPlace_def, hAccepted]
  · simp only [ofPlace_def, Summary.aggregate, hAccepted, hEntryPoints, hConfig, hDependencies]

/-- Surveys that differ in their documents at most do not differ if these are the same. -/
theorem SameButDocs.eq_of_docPaths
    (h : SameButDocs (ofPlace disk place rules thresholds timestamp)
      (ofPlace disk' place rules thresholds timestamp))
    (hDocs : (ofPlace disk' place rules thresholds timestamp).summary.docPaths =
      (ofPlace disk place rules thresholds timestamp).summary.docPaths) :
    ofPlace disk' place rules thresholds timestamp = ofPlace disk place rules thresholds timestamp := by
  have hRecords := h.records
  have hSummary := h.summary
  rw [hDocs] at hSummary
  have hParts (disk : Disk) : ofPlace disk place rules thresholds timestamp =
      ⟨(ofPlace disk place rules thresholds timestamp).records,
        (ofPlace disk place rules thresholds timestamp).summary,
        Context.synthesize (ofPlace disk place rules thresholds timestamp).records
          (ofPlace disk place rules thresholds timestamp).summary thresholds timestamp⟩ := rfl
  rw [hParts disk', hRecords, hSummary]
  rfl

/-! ### Documents -/

/-- The paths of all documents that a survey walks. -/
def walkedDocs (disk : Disk) (filter : Filter) (place : List String) : List String :=
  (walkedPaths disk filter place).filter Probe.isDoc

theorem docPaths_ofPlace : (ofPlace disk place rules thresholds timestamp).summary.docPaths =
    (walkedDocs disk rules.filter place).take Probe.maxDocs := rfl

/-- Documents are walked in order. -/
theorem walkedDocs_pairwise (disk : Disk) (filter : Filter) (place : List String) :
    (walkedDocs disk filter place).Pairwise Before :=
  (walkedPaths_pairwise disk filter place).sublist List.filter_sublist

/-- The path of the narrative in a directory below the root. -/
def narrativePath (names : List String) : String := "/".intercalate (names ++ ["ai_summary.md"])

theorem isName_narrative (h : ∀ n ∈ names, IsName n) : ∀ n ∈ names ++ ["ai_summary.md"], IsName n :=
  List.forall_mem_append.2 ⟨h, by decide⟩

/-- All documents but the narrative are walked as before. -/
theorem AlikeBut.otherDocs_eq (h : AlikeBut names place disk disk' tree tree') (filter : Filter) :
    (walkedDocs disk filter place).filter (· ≠ narrativePath names) =
      (walkedDocs disk' filter place).filter (· ≠ narrativePath names) := by
  rw [walkedDocs, walkedDocs, List.filter_filter, List.filter_filter]
  apply filter_walkedPaths_eq h.found h.found' h.linkFree h.linkFree' h.agree
  intro q hQ
  rw [Bool.and_eq_false_iff, decide_eq_false_iff_not, ne_eq, not_not]
  by_cases hDoc : Probe.isDoc ("/".intercalate q)
  · obtain ⟨before, hBefore⟩ := (h.isArtifact q hQ).eq_narrative hDoc
    obtain ⟨name, _, rfl⟩ := List.mem_map.1 hQ
    obtain ⟨hNames, _⟩ := List.append_inj' hBefore rfl
    rw [hBefore, ← hNames]
    exact .inl rfl
  · exact .inr (by simpa using hDoc)

/-- The narrative is a document like any other, unless it is left out. -/
theorem narrativePath_mem_walkedDocs_iff {filter : Filter} (hNames : ∀ n ∈ names, IsName n)
    (hFound : disk.root.at? place = some tree) (hFree : tree.LinkFree) :
    narrativePath names ∈ walkedDocs disk filter place ↔
      (∃ bytes modified, tree.at? (names ++ ["ai_summary.md"]) = some (.file bytes modified)) ∧
      Kept (fun names => filter.skips ("/".intercalate names)) (names ++ ["ai_summary.md"]) := by
  have hDoc : Probe.isDoc (narrativePath names) = true := by
    have hExtension : (Path.extension? "ai_summary.md").map Language.lowered = some "md" := by
      decide +kernel
    rw [Probe.isDoc, narrativePath, Probe.baseName_intercalate_concat (by decide), hExtension]
    rfl
  rw [walkedDocs, List.mem_filter, narrativePath,
    mem_walkedPaths_iff (isName_narrative hNames) (by simp), below?_eq_at? hFound hFree]
  rw [narrativePath] at hDoc
  simp only [hDoc, straight_of_linkFree hFound hFree, and_true]

theorem filter_ne_of_not_mem {paths : List String} {path : String} (h : path ∉ paths) :
    paths.filter (· ≠ path) = paths := by
  rw [List.filter_eq_self]
  intro q hQ
  exact decide_eq_true fun hSame => h (hSame ▸ hQ)

/-- What an ordered list of paths is without one of them, and with it in its place. -/
theorem exists_place_of_mem {paths : List String} {path : String} (h : paths.Pairwise Before)
    (hMem : path ∈ paths) : ∃ before behind, paths.filter (· ≠ path) = before ++ behind ∧
      paths = before ++ path :: behind ∧ (∀ q ∈ before, Before q path) ∧
      ∀ q ∈ behind, Before path q := by
  obtain ⟨before, behind, rfl⟩ := List.append_of_mem hMem
  rw [List.pairwise_append, List.pairwise_cons] at h
  obtain ⟨_, ⟨hBehind, _⟩, hBefore⟩ := h
  have hBefore : ∀ q ∈ before, Before q path := fun q hQ => hBefore q hQ path List.mem_cons_self
  refine ⟨before, behind, ?_, rfl, hBefore, hBehind⟩
  rw [List.filter_append, List.filter_cons_of_neg (by simp),
    filter_ne_of_not_mem fun hIn => (hBefore path hIn).asymm (hBefore path hIn),
    filter_ne_of_not_mem fun hIn => (hBehind path hIn).asymm (hBehind path hIn)]

/-- Ordered lists of paths are the same if they are so but for one path, which both or none have. -/
theorem eq_of_filter_ne_eq {paths paths' : List String} {path : String} (h : paths.Pairwise Before)
    (h' : paths'.Pairwise Before) (hRest : paths.filter (· ≠ path) = paths'.filter (· ≠ path))
    (hMem : path ∈ paths ↔ path ∈ paths') : paths = paths' := by
  have hSame (q : String) : q ∈ paths ↔ q ∈ paths' := by
    by_cases hPath : q = path
    · rw [hPath, hMem]
    · have hQ : q ∈ paths.filter (· ≠ path) ↔ q ∈ paths'.filter (· ≠ path) := by rw [hRest]
      simpa [hPath] using hQ
  have hNodup {paths : List String} (h : paths.Pairwise Before) : paths.Nodup := by
    apply h.imp
    rintro q _ hBefore rfl
    exact hBefore.asymm hBefore
  have hPerm := (List.perm_ext_iff_of_nodup (hNodup h) (hNodup h')).2 hSame
  exact hPerm.eq_of_pairwise (fun _ _ _ _ hBefore hAfter => absurd hAfter hBefore.asymm) h h'

/-- So the documents are the same if the narrative is walked both times or neither time. -/
theorem AlikeBut.walkedDocs_eq (h : AlikeBut names place disk disk' tree tree') {filter : Filter}
    (hMem : narrativePath names ∈ walkedDocs disk filter place ↔
      narrativePath names ∈ walkedDocs disk' filter place) :
    walkedDocs disk filter place = walkedDocs disk' filter place :=
  eq_of_filter_ne_eq (walkedDocs_pairwise ..) (walkedDocs_pairwise ..) (h.otherDocs_eq filter) hMem

/-- A narrative that is new among the documents is in its place there. -/
theorem AlikeBut.exists_place (h : AlikeBut names place disk disk' tree tree') {filter : Filter}
    (hOut : narrativePath names ∉ walkedDocs disk filter place)
    (hIn : narrativePath names ∈ walkedDocs disk' filter place) :
    ∃ before behind, walkedDocs disk filter place = before ++ behind ∧
      walkedDocs disk' filter place = before ++ narrativePath names :: behind ∧
      (∀ q ∈ before, Before q (narrativePath names)) ∧
      ∀ q ∈ behind, Before (narrativePath names) q := by
  obtain ⟨before, behind, hRest, hDocs, hOrder⟩ :=
    exists_place_of_mem (walkedDocs_pairwise disk' filter place) hIn
  rw [← h.otherDocs_eq, filter_ne_of_not_mem hOut] at hRest
  exact ⟨before, behind, hRest, hDocs, hOrder⟩

/-! ### Writing and surveying again -/

/-- To write the artifacts into a tree without links leaves one that is alike but for them. -/
theorem exists_alikeBut (hPlace : disk.IsDirectoryAt place) (hFound : disk.root.at? place = some tree)
    (hFree : tree.LinkFree) (hOutput : disk'.IsDirectoryAt (place ++ names))
    (h : Report.WrittenAt (place ++ names) now (artifacts survey summaryOnly) disk disk') :
    ∃ tree', AlikeBut names place disk disk' tree tree' ∧
      ∃ bytes modified, tree'.at? (names ++ ["ai_summary.md"]) = some (.file bytes modified) := by
  have hContents : ∀ file ∈ artifacts survey summaryOnly,
      disk'.root.at? (place ++ (names ++ [file.1])) = some (.file (Text.toBytes file.2) now) := by
    intro file hFile
    rw [← List.append_assoc]
    exact h.contents file hFile
  have hChanged : Changed (((artifacts survey summaryOnly).map fun file => names ++ [file.1]).map
      (place ++ ·)) disk disk' := by
    simpa [Function.comp_def] using h.changed
  obtain ⟨tree', hFound', hFree', hAgree⟩ := hChanged.exists_tree hPlace hFound hFree (by
    intro q hQ target hLink
    obtain ⟨file, hFile, rfl⟩ := List.mem_map.1 hQ
    cases (hContents file hFile).symm.trans hLink)
  have hNarrative := hContents _ (Report.narrative_mem_artifacts survey summaryOnly)
  rw [at?_place_append hFound'] at hNarrative
  refine ⟨tree', ⟨?_, hPlace, h.changed.isDirectoryAt hPlace, hFound, hFound', hFree, hFree', ?_⟩,
    _, _, hNarrative⟩
  · obtain ⟨entries, hAt⟩ := hOutput
    exact fun n hN => (disk'.wellFormed.at? hAt).2 n (List.mem_append_right _ hN)
  · intro q hQ
    refine hAgree q fun hMem => hQ ?_
    obtain ⟨file, hFile, rfl⟩ := List.mem_map.1 hMem
    exact List.mem_map_of_mem
      ((Report.artifacts_names survey summaryOnly).subset (List.mem_map_of_mem hFile))

/-- When the files of a survey are written into a new directory of the project, a second survey has the
same records and the same summary, but for the narrative among the documents if it is not skipped.
When those of the second one are written there, the third one is the same. -/
theorem survey_after_writing {directory : String} {disk₁ : Disk} {written : List String}
    (hPlace : rootPlace disk root = .ok place) (hFound : disk.root.at? place = some tree)
    (hFree : tree.LinkFree) (hText : config.includeTextFiles = false)
    (hRun : run disk root config timestamp = .ok survey)
    (hNew : disk.root.at? (place ++ names) = none)
    (hWrite : Report.write disk directory survey summaryOnly now = (disk₁, .ok written))
    (hDirectory : disk₁.locate directory = .ok (place ++ names)) :
    ∃ rules survey₁, Rules.ofConfig config = .ok rules ∧
      run disk₁ root config timestamp = .ok survey₁ ∧ SameButDocs survey survey₁ ∧
      (Kept (fun names => rules.filter.skips ("/".intercalate names)) (names ++ ["ai_summary.md"]) →
        ∃ before behind, walkedDocs disk rules.filter place = before ++ behind ∧
          (∀ q ∈ before, Before q (narrativePath names)) ∧
          (∀ q ∈ behind, Before (narrativePath names) q) ∧
          survey₁.summary.docPaths = (before ++ narrativePath names :: behind).take Probe.maxDocs) ∧
      (¬Kept (fun names => rules.filter.skips ("/".intercalate names)) (names ++ ["ai_summary.md"]) →
        survey₁.summary.docPaths = survey.summary.docPaths) ∧
      ∀ summaryOnly' now' disk₂ written',
        Report.write disk₁ directory survey₁ summaryOnly' now' = (disk₂, .ok written') →
        run disk₂ root config timestamp = .ok survey₁ := by
  obtain ⟨place', rules, hPlace', hRules, rfl⟩ := run_eq_ok_iff.1 hRun
  cases hPlace.symm.trans hPlace'
  have hText' : rules.includeTextFiles = false :=
    (Rules.ofConfig_eq_ok_iff.1 hRules).2.2.2.symm.trans hText
  have hAbsent (name : String) : disk.root.at? (place ++ names ++ [name]) = none := by
    rw [Entry.at?_append, hNew]
    rfl
  have hNoLink (name target : String) :
      disk.root.at? (place ++ names ++ [name]) ≠ some (.link target) := by
    rw [hAbsent]
    nofun
  obtain ⟨hLeads, hWritten⟩ :=
    Report.writtenAt_of_write_eq_ok hWrite hDirectory fun name _ => hNoLink name
  have hPlace₁ := rootPlace_of_changed hWritten.changed hPlace
  obtain ⟨tree₁, hAlike, hFile⟩ :=
    exists_alikeBut (rootPlace_eq_ok_iff.1 hPlace).2 hFound hFree hLeads.2 hWritten
  have hMem₁ := @narrativePath_mem_walkedDocs_iff _ _ _ _ rules.filter hAlike.isName hAlike.found'
    hAlike.linkFree'
  have hOut : narrativePath names ∉ walkedDocs disk rules.filter place := by
    rw [narrativePath_mem_walkedDocs_iff hAlike.isName hFound hFree, ← at?_place_append hFound,
      ← List.append_assoc, hAbsent]
    simp
  refine ⟨rules, _, hRules, run_of_rules hPlace₁ hRules, hAlike.sameButDocs hText', ?_, ?_, ?_⟩
  · intro hKept
    obtain ⟨before, behind, hOld, hDocs, hBefore, hBehind⟩ :=
      hAlike.exists_place hOut (hMem₁.2 ⟨hFile, hKept⟩)
    exact ⟨before, behind, hOld, hBefore, hBehind, by rw [docPaths_ofPlace, hDocs]⟩
  · intro hSkipped
    have hOut₁ := hMem₁.not.2 fun h => hSkipped h.2
    rw [docPaths_ofPlace, docPaths_ofPlace, hAlike.walkedDocs_eq (iff_of_false hOut hOut₁)]
  · intro summaryOnly' now' disk₂ written' hWrite'
    have hPath : directory ≠ "" := by
      rintro rfl
      cases hDirectory
    have hLeads₂ := @Report.leadsTo_write _ _ _ now'
      (ofPlace disk₁ place rules config.thresholds timestamp) summaryOnly' hLeads
    rw [hWrite'] at hLeads₂
    obtain ⟨_, hWritten'⟩ := Report.writtenAt_of_write_eq_ok hWrite' (hLeads₂.locate_eq hPath)
      fun name _ => hWritten.not_link (hNoLink name)
    obtain ⟨tree₂, hAlike', hFile'⟩ :=
      exists_alikeBut hAlike.directory' hAlike.found' hAlike.linkFree' hLeads₂.2 hWritten'
    have hMem₂ := @narrativePath_mem_walkedDocs_iff _ _ _ _ rules.filter hAlike.isName hAlike'.found'
      hAlike'.linkFree'
    -- both times the narrative is there, whatever it says
    have hDocs := @AlikeBut.walkedDocs_eq _ _ _ _ _ _ hAlike' rules.filter (by
      simp only [hMem₁, hMem₂, hFile, hFile'])
    rw [run_of_rules (rootPlace_of_changed hWritten'.changed hPlace₁) hRules]
    refine congrArg Except.ok ((hAlike'.sameButDocs hText').eq_of_docPaths ?_)
    rw [docPaths_ofPlace, docPaths_ofPlace, hDocs]

/-! ### A small program -/

/-- The survey of a small program, and the disk on which it has been written below the root. -/
def programSurvey : Survey := ofPlace diskOfProgram ["repo"] plainRules {} .epoch

def diskOfSurveyedProgram : Disk :=
  (Report.write diskOfProgram "/repo/out" programSurvey false .epoch).1

/-- The text beside a small program is named first, then the narrative of its survey. -/
theorem surveyedProgram_docs : ∃ survey,
    run diskOfSurveyedProgram "/repo" {} .epoch = .ok survey ∧
      survey.records = programSurvey.records ∧
      survey.summary.docPaths = ["README.md", "out/ai_summary.md"] := by
  have hPlace : rootPlace diskOfProgram "/repo" = .ok ["repo"] := by decide +kernel
  have hFree : programWithPackage.LinkFree := by
    simp [programWithPackage, Entry.linkFree_directory, Entry.linkFree_file]
  have hRun : run diskOfProgram "/repo" {} .epoch = .ok programSurvey := run_of_rules hPlace rfl
  have hWritten : (Report.write diskOfProgram "/repo/out" programSurvey false .epoch).2 =
      .ok (artifactNames.map (Path.join "/repo/out")) := by
    decide +kernel
  have hDirectory : diskOfSurveyedProgram.locate "/repo/out" = .ok (["repo"] ++ ["out"]) := by
    decide +kernel
  obtain ⟨rules, survey, hRules, hAgain, hSame, hKept, _⟩ :=
    survey_after_writing hPlace rfl hFree rfl hRun rfl (Prod.ext rfl hWritten) hDirectory
  have hPlain : Rules.ofConfig {} = .ok plainRules := rfl
  cases hPlain.symm.trans hRules
  have hClear : Kept (fun names => plainFilter.skips ("/".intercalate names))
      (["out"] ++ ["ai_summary.md"]) := by
    have hSteps : plainFilter.skips ("/".intercalate ([] ++ ["out"])) = false ∧
        plainFilter.skips ("/".intercalate (["out"] ++ ["ai_summary.md"])) = false := by
      decide +kernel
    exact kept_concat.2 ⟨kept_concat.2 ⟨kept_nil, hSteps.1⟩, hSteps.2⟩
  obtain ⟨before, behind, hDocs, hBefore, hBehind, hNamed⟩ := hKept hClear
  have hText : walkedDocs diskOfProgram plainFilter ["repo"] = ["README.md"] := by
    decide +kernel
  have hOrder : Before "README.md" (narrativePath ["out"]) := by
    rw [Before]
    decide +kernel
  refine ⟨survey, hAgain, hSame.records, ?_⟩
  rcases List.append_eq_singleton_iff.1 (hDocs.symm.trans hText) with ⟨_, rfl⟩ | ⟨rfl, rfl⟩
  · exact absurd hOrder (hBehind _ (List.mem_singleton_self _)).asymm
  · rw [hNamed]
    decide +kernel

end Survey

end SourceSurvey
