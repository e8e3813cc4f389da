import SourceSurvey.CommandLine.Run
import SourceSurvey.Proofs.Report.Artifacts
import SourceSurvey.Proofs.Survey.Run

/-!
What a command does to the disk. Without a survey it does nothing at all, and why there is no survey
can be told from the root and the settings; with one it writes the files of the survey.
-/

namespace SourceSurvey

namespace Config

/-- Why the settings in a file, given or found at the root, cannot be used. -/
inductive Unusable (disk : Disk) (given : Option String) (root : String) : LoadFailure → Prop
  | missing {path : String} {cause : Disk.Failure}
      (hPath : given.or (discover? disk root) = some path) (hRead : disk.read path = .error cause) :
      Unusable disk given root (.unreadable path)
  | unparsable {path : String} {bytes : List UInt8}
      (hPath : given.or (discover? disk root) = some path) (hRead : disk.read path = .ok bytes)
      (hText : ((Text.ofBytes? bytes).bind Yaml.parse?).bind ofYaml? = none) :
      Unusable disk given root (.unreadable path)
  | invalid {path : String} {bytes : List UInt8} {config : Config} {fault : Fault}
      (hPath : given.or (discover? disk root) = some path) (hRead : disk.read path = .ok bytes)
      (hText : ((Text.ofBytes? bytes).bind Yaml.parse?).bind ofYaml? = some config)
      (hFault : config.validate = .error fault) : Unusable disk given root (.invalid fault)

variable {disk : Disk} {path root : String} {given : Option String} {e : LoadFailure}

/-- Settings are read if the file can be, is a text, and is well formed. -/
theorem readFile_eq_ok_iff {config : Config} :
    readFile disk path = .ok config ↔ ∃ bytes, disk.read path = .ok bytes ∧
      ((Text.ofBytes? bytes).bind Yaml.parse?).bind ofYaml? = some config := by
  rw [readFile]
  cases disk.read path with
  | error => simp
  | ok bytes => cases h : ((Text.ofBytes? bytes).bind Yaml.parse?).bind ofYaml? <;> simp [h]

theorem readFile_eq_error_iff :
    readFile disk path = .error e ↔ e = .unreadable path ∧
      ((∃ cause, disk.read path = .error cause) ∨ ∃ bytes, disk.read path = .ok bytes ∧
        ((Text.ofBytes? bytes).bind Yaml.parse?).bind ofYaml? = none) := by
  rw [readFile]
  cases disk.read path with
  | error => simp [eq_comm]
  | ok bytes =>
      cases h : ((Text.ofBytes? bytes).bind Yaml.parse?).bind ofYaml? <;> simp [h, eq_comm]

/-- Settings fail to load in the cases that are listed, and in no others. -/
theorem load_eq_error_iff : load disk given root = .error e ↔ Unusable disk given root e := by
  have hDefault : ({} : Config).validate = .ok () := by decide +kernel
  rw [load]
  cases hPath : given.or (discover? disk root) with
  | none =>
      constructor
      · intro h
        simp [hDefault, Except.mapError, bind, Except.bind, pure, Except.pure] at h
      · intro h
        cases h <;> simp_all
  | some path =>
      simp only [Except.bind_eq_error_iff, Except.mapError_eq_error_iff, readFile_eq_error_iff,
        readFile_eq_ok_iff]
      constructor
      · intro h
        rcases h with ⟨rfl, ⟨cause, hRead⟩ | ⟨bytes, hRead, hText⟩⟩ |
          ⟨config, ⟨bytes, hRead, hText⟩, ⟨fault, hFault, rfl⟩ | ⟨_, _, hPure⟩⟩
        · exact .missing hPath hRead
        · exact .unparsable hPath hRead hText
        · exact .invalid hPath hRead hText hFault
        · cases hPure
      · intro h
        cases h with
        | missing hThere hRead =>
            cases hPath.symm.trans hThere
            exact .inl ⟨rfl, .inl ⟨_, hRead⟩⟩
        | unparsable hThere hRead hText =>
            cases hPath.symm.trans hThere
            exact .inl ⟨rfl, .inr ⟨_, hRead, hText⟩⟩
        | invalid hThere hRead hText hFault =>
            cases hPath.symm.trans hThere
            exact .inr ⟨_, ⟨_, hRead, hText⟩, .inl ⟨_, hFault, rfl⟩⟩

end Config

namespace Survey

/-- Why there is no survey of a project: its root is missing or no directory, its settings cannot be
used, or they give no rules. -/
inductive Hindered (disk : Disk) (root : String) (given : Option String) : Failure → Prop
  | missingRoot (hRoot : disk.find? root = none) : Hindered disk root given (.missingRoot root)
  | settings {found : Disk.Entry} {e : Config.LoadFailure} (hRoot : disk.find? root = some found)
      (hSettings : Config.Unusable disk given root e) : Hindered disk root given (.config e)
  | notADirectory {found : Disk.Entry} {config : Config} (hRoot : disk.find? root = some found)
      (hKind : ¬found.IsDirectory) (hSettings : Config.load disk given root = .ok config) :
      Hindered disk root given (.notADirectory root)
  | rules {found : Disk.Entry} {config : Config} {fault : Rules.Fault}
      (hRoot : disk.find? root = some found) (hKind : found.IsDirectory)
      (hSettings : Config.load disk given root = .ok config)
      (hFault : Rules.ofConfig config = .error fault) : Hindered disk root given (.rules fault)

variable {disk : Disk} {root : String} {given : Option String} {timestamp : Timestamp}

theorem rootPlace_eq_error_iff {found : Disk.Entry} (h : disk.find? root = some found) {e : Failure} :
    rootPlace disk root = .error e ↔ e = .notADirectory root ∧ ¬found.IsDirectory := by
  rw [Disk.find?] at h
  rw [rootPlace]
  cases hLocate : disk.locate root with
  | error => simp [hLocate] at h
  | ok place =>
      rw [hLocate] at h
      cases found <;> simp [h, Disk.Entry.IsDirectory, throw, throwThe, MonadExceptOf.throw, pure,
        Except.pure, eq_comm]

/-- So does a survey by a file of settings. -/
theorem runWith_eq_error_iff {e : Failure} :
    runWith disk root given timestamp = .error e ↔ Hindered disk root given e := by
  rw [runWith]
  cases hRoot : disk.find? root with
  | none =>
      constructor
      · intro h
        cases h
        exact .missingRoot hRoot
      · intro h
        cases h with
        | missingRoot => rfl
        | settings hThere => cases hRoot.symm.trans hThere
        | notADirectory hThere => cases hRoot.symm.trans hThere
        | rules hThere => cases hRoot.symm.trans hThere
  | some found =>
      simp only [Option.isNone_some, Bool.false_eq_true, if_false, Except.bind_eq_error_iff,
        Except.mapError_eq_error_iff, Except.mapError_eq_ok_iff, run, rootPlace_eq_error_iff hRoot,
        Config.load_eq_error_iff]
      have hDirectory : (∃ place, rootPlace disk root = .ok place) ↔ found.IsDirectory := by
        have hError (e : Failure) := @rootPlace_eq_error_iff _ _ _ hRoot e
        cases hPlace : rootPlace disk root with
        | ok place => simpa [hPlace] using hError
        | error cause => simpa using ((hError cause).1 hPlace).2
      constructor
      · intro h
        rcases h with ⟨cause, hSettings, rfl⟩ | ⟨config, hSettings, ⟨rfl, hKind⟩ |
          ⟨place, hPlace, ⟨fault, hFault, rfl⟩ | ⟨_, _, hPure⟩⟩⟩
        · exact .settings hRoot hSettings
        · exact .notADirectory hRoot hKind hSettings
        · exact .rules hRoot (hDirectory.1 ⟨place, hPlace⟩) hSettings hFault
        · cases hPure
      · intro h
        cases h with
        | missingRoot hThere => cases hRoot.symm.trans hThere
        | settings _ hSettings => exact .inl ⟨_, hSettings, rfl⟩
        | notADirectory hThere hKind hSettings =>
            cases hRoot.symm.trans hThere
            exact .inr ⟨_, hSettings, .inl ⟨rfl, hKind⟩⟩
        | rules hThere hKind hSettings hFault =>
            cases hRoot.symm.trans hThere
            obtain ⟨place, hPlace⟩ := hDirectory.2 hKind
            exact .inr ⟨_, hSettings, .inr ⟨place, hPlace, .inl ⟨_, hFault, rfl⟩⟩⟩

end Survey

namespace CommandLine

open Report (Ends FilesOf Written)

variable {disk : Disk} {words : List String} {o : Options} {colored : Bool} {now : Timestamp}

/-- A survey that fails leaves the disk as it is. -/
theorem run_of_error {e : Survey.Failure} (hParse : parse words = .ok o)
    (h : Survey.runWith disk o.repoPath o.config now = .error e) :
    run disk words colored now = (disk, failed e.message) := by
  simp only [run, hParse, execute, h]

/-- A survey that does not fail is written out. -/
theorem run_of_ok {survey : Survey} (hParse : parse words = .ok o)
    (h : Survey.runWith disk o.repoPath o.config now = .ok survey) :
    (run disk words colored now).1 = (Report.write disk o.output survey o.summaryOnly now).1 ∧
      ((run disk words colored now).2.exitCode = 0 ↔
        ∃ written, (Report.write disk o.output survey o.summaryOnly now).2 = .ok written) := by
  simp only [run, hParse, execute, h]
  split <;> simp_all [failed]

/-- What is written are the files of a survey, one after the other, each with the text that says its
records, its summary, its context or the narrative, and nothing else changes: all of them, or those
before one that cannot be written. A command does that if there is a survey; if there is none, for
one of the reasons of `Hindered`, it fails and leaves the disk as it is. -/
theorem effect_of_command (disk : Disk) (now : Timestamp) :
    (∀ directory survey summaryOnly files, FilesOf survey summaryOnly files →
      (∀ file ∈ files,
        (disk.ensureDirectory directory).1.isLink (Path.join directory file.1) = false) →
      ∃ written,
        Written directory now written disk (Report.write disk directory survey summaryOnly now).1 ∧
        Ends disk directory files (Report.write disk directory survey summaryOnly now).1 written
          (Report.write disk directory survey summaryOnly now).2) ∧
    ∀ words colored o, parse words = .ok o →
      (∀ e, Survey.runWith disk o.repoPath o.config now = .error e ↔
        Survey.Hindered disk o.repoPath o.config e) ∧
      (∀ e, Survey.Hindered disk o.repoPath o.config e →
        run disk words colored now =
          (disk, { exitCode := 1, diagnostic := some ("Error: " ++ e.message) })) ∧
      ∀ survey, Survey.runWith disk o.repoPath o.config now = .ok survey →
        (run disk words colored now).1 = (Report.write disk o.output survey o.summaryOnly now).1 ∧
        ((run disk words colored now).2.exitCode = 0 ↔
          ∃ written, (Report.write disk o.output survey o.summaryOnly now).2 = .ok written) := by
  constructor
  · intro directory survey summaryOnly files hFiles hLinks
    cases hFiles.eq_artifacts
    exact Report.write_ends disk directory survey summaryOnly now hLinks
  · intro words colored o hParse
    refine ⟨fun e => Survey.runWith_eq_error_iff, ?_, fun survey => run_of_ok hParse⟩
    intro e hHindered
    exact run_of_error hParse (Survey.runWith_eq_error_iff.2 hHindered)

/-- A project of one program, an output directory with an older narrative, and a directory in the
place of the context. -/
def diskOfBlockedOutput : Disk where
  entries := [("out", .directory [("ai_context.json", .directory []),
    ("ai_summary.md", .file [111, 108, 100] .epoch)]),
    ("repo", .directory [("a.py", .file [97] .epoch)])]
  wellFormed := by
    simp only [Disk.Entry.WellFormed, Disk.AllWellFormed]
    decide +kernel

/-- A survey of the program by no rules. -/
def surveyOfProgram : Survey :=
  .ofPlace diskOfBlockedOutput ["repo"] ⟨⟨[], [], []⟩, [], [], false⟩ {} .epoch

/-- The first two files are written, with the record of the program and the summary, and the older
narrative stays. -/
theorem effect_on_blockedOutput :
    (∃ written, Written "/out" .epoch written diskOfBlockedOutput
        (Report.write diskOfBlockedOutput "/out" surveyOfProgram false .epoch).1 ∧
      written = [
        ("files_analysis.json", (Json.arr (surveyOfProgram.records.map Record.toJson)).pretty),
        ("project_structure.json", surveyOfProgram.summary.toJson.pretty)]) ∧
    surveyOfProgram.records.map Record.path = ["a.py"] ∧
    run diskOfBlockedOutput ["/none", "-o", "/new"] false .epoch = (diskOfBlockedOutput,
      { exitCode := 1, diagnostic := some "Error: repository path '/none' does not exist" }) := by
  obtain ⟨hWrite, hRun⟩ := effect_of_command diskOfBlockedOutput .epoch
  have hLinks : ∀ name ∈ Report.artifactNames,
      (diskOfBlockedOutput.ensureDirectory "/out").1.isLink (Path.join "/out" name) = false := by
    decide +kernel
  have hResult : (Report.write diskOfBlockedOutput "/out" surveyOfProgram false .epoch).2 =
      .error (.writing (Path.join "/out" "ai_context.json") .isDirectory) := by
    decide +kernel
  have hDistinct : ∀ name ∈ Report.artifactNames,
      Path.join "/out" name = Path.join "/out" "ai_context.json" → name = "ai_context.json" := by
    decide +kernel
  refine ⟨?_, by decide +kernel, ?_⟩
  · obtain ⟨written, hWritten, hEnds⟩ := hWrite "/out" surveyOfProgram false _ .all
      (by simpa [Report.artifactNames] using hLinks)
    refine ⟨written, hWritten, ?_⟩
    rw [hResult] at hEnds
    generalize hCause : Path.join "/out" "ai_context.json" = path at hEnds
    cases hEnds with
    | @stopped _ rest file _ hFiles _ =>
        have hNames : Report.artifactNames =
            written.map (·.1) ++ file.1 :: rest.map (·.1) := by
          simpa [Report.artifactNames] using congrArg (List.map (·.1)) hFiles
        have hName := hDistinct file.1 (by simp [hNames]) hCause.symm
        rw [hName] at hNames
        -- the file of this name is the third, so two come before it
        rcases written with _ | ⟨first, _ | ⟨second, _ | ⟨third, others⟩⟩⟩
        · simp [Report.artifactNames] at hNames
        · simp [Report.artifactNames] at hNames
        · cases hFiles
          rfl
        · rcases others with _ | ⟨fourth, others⟩
          · simp [Report.artifactNames] at hNames
          · simp [Report.artifactNames] at hNames
  · have hParse : parse ["/none", "-o", "/new"] = .ok ⟨"/none", "/new", false, none, false, false⟩ := by
      decide +kernel
    have hRoot : diskOfBlockedOutput.find? "/none" = none := by decide +kernel
    exact (hRun _ false _ hParse).2.1 _ (.missingRoot hRoot)

end CommandLine

end SourceSurvey
