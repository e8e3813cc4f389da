import SourceSurvey.Proofs.Config
import SourceSurvey.Proofs.Regex.LetterCase
import SourceSurvey.Proofs.Survey.Rules
import SourceSurvey.Proofs.Survey.Run

/-!
What valid settings are good for. With them every directory can be surveyed whatever it holds,
except that patterns may be too much for one set, and signatures too large once letter case is
ignored.
-/

namespace SourceSurvey

/-- A directory can be surveyed from wherever its path leads. -/
theorem Survey.exists_rootPlace_eq_ok {disk : Disk} {root : String}
    (h : disk.isDirectory root = true) : ∃ place, rootPlace disk root = .ok place := by
  obtain ⟨place, hLocate, hAt⟩ := Disk.exists_locate_of_isDirectory h
  exact ⟨place, rootPlace_eq_ok_iff.2 ⟨hLocate, hAt⟩⟩

namespace Rules

variable [Regex.Engine] [Glob.Engine] {config : Config}

/-- What is checked beforehand leaves only the sizes to fail: those of the patterns taken together,
and of the signatures without letter case. -/
theorem exists_ofConfig_eq_ok_of_validate (h : config.validate = .ok ()) :
    (∃ rules, ofConfig config = .ok rules) ↔
      (∀ globs, config.excludedPaths.mapM Glob.parse = .ok globs → Glob.Fits globs) ∧
      ∀ entry ∈ config.extraFrameworks.entries, ∀ signature ∈ entry.2,
        Regex.parse true signature ≠ .error .tooLarge := by
  obtain ⟨hRules, hSignatures, hPaths, _⟩ := Config.validate_eq_ok_iff.1 h
  obtain ⟨globs, hGlobs⟩ := Except.exists_mapM_eq_ok_iff.2 hPaths
  rw [exists_ofConfig_eq_ok_iff]
  constructor
  · intro hReadable
    obtain ⟨⟨read, hRead⟩, _, hCatalog⟩ := hReadable
    obtain ⟨hSame, hFits⟩ := Glob.parseSet_eq_ok_iff.1 hRead
    constructor
    · intro globs hGlobs
      rw [hSame] at hGlobs
      cases hGlobs
      exact hFits
    · intro entry hEntry signature hSignature hLarge
      obtain ⟨r, hR⟩ := hCatalog entry hEntry signature hSignature
      rw [hLarge] at hR
      cases hR
  · intro hAllFit
    obtain ⟨hFits, hFit⟩ := hAllFit
    refine ⟨⟨globs, Glob.parseSet_eq_ok_iff.2 ⟨hGlobs, hFits globs hGlobs⟩⟩, ?_, ?_⟩
    · intro category hCategory pattern hPattern
      obtain ⟨r, hR, _⟩ := hRules category hCategory pattern hPattern
      exact ⟨r, hR⟩
    · intro entry hEntry signature hSignature
      obtain ⟨r, hR⟩ := hSignatures entry hEntry signature hSignature
      exact (Regex.parse_ignoringCase hR).resolve_right (hFit entry hEntry signature hSignature)

/-- And nothing but these can be what a failure is about. -/
theorem of_ofConfig_eq_error_of_validate {fault : Fault} (h : config.validate = .ok ())
    (hFault : ofConfig config = .error fault) :
    (∃ cause, .excludedPaths cause = fault ∧ ∀ e, cause ≠ .pattern e) ∨
    ∃ signature, .signature ⟨signature, .tooLarge⟩ = fault := by
  obtain ⟨hRules, hSignatures, hPaths, _⟩ := Config.validate_eq_ok_iff.1 h
  rcases of_ofConfig_eq_error hFault with ⟨e, hFilter, rfl⟩ | ⟨e, hRegistry, rfl⟩ | ⟨e, hCatalog, rfl⟩
  · refine Or.inl ⟨e, rfl, ?_⟩
    intro cause hCause
    subst hCause
    obtain ⟨globs, hGlobs⟩ := Except.exists_mapM_eq_ok_iff.2 hPaths
    have hPattern := Glob.of_parseSet_eq_pattern (Filter.of_withExtras_eq_error hFilter)
    rw [hGlobs] at hPattern
    cases hPattern
  · obtain ⟨registry, hOk⟩ := Tag.exists_registryWith_eq_ok_iff.2
      fun category hCategory pattern hPattern => by
        obtain ⟨r, hR, _⟩ := hRules category hCategory pattern hPattern
        exact ⟨r, hR⟩
    rw [hOk] at hRegistry
    cases hRegistry
  · obtain ⟨entry, hEntry, hSignature, hCause⟩ := Catalog.exists_of_withExtras_eq_error hCatalog
    obtain ⟨r, hR⟩ := hSignatures entry hEntry e.signature hSignature
    refine Or.inr ⟨e.signature, ?_⟩
    rcases Regex.parse_ignoringCase hR with ⟨r', hR'⟩ | hLarge
    · rw [hR'] at hCause
      cases hCause
    · rw [hLarge] at hCause
      rw [Except.error.inj hCause]

end Rules

namespace Survey

section

variable [Regex.Engine] [Glob.Engine] {disk : Disk} {root : String} {config : Config}
  {timestamp : Timestamp}

/-- With valid settings a directory is surveyed whatever it holds, exactly if the patterns fit
together and no signature is too large when letter case is ignored. Nothing else can fail. -/
theorem run_of_validate (hRoot : disk.isDirectory root = true) (h : config.validate = .ok ()) :
    ((∃ survey, run disk root config timestamp = .ok survey) ↔
      (∀ globs, config.excludedPaths.mapM Glob.parse = .ok globs → Glob.Fits globs) ∧
      ∀ entry ∈ config.extraFrameworks.entries, ∀ signature ∈ entry.2,
        Regex.parse true signature ≠ .error .tooLarge) ∧
    ∀ e, run disk root config timestamp = .error e →
      (∃ cause, e = .rules (.excludedPaths cause) ∧ ∀ p, cause ≠ .pattern p) ∨
      ∃ signature, e = .rules (.signature ⟨signature, .tooLarge⟩) := by
  obtain ⟨place, hPlace⟩ := exists_rootPlace_eq_ok hRoot
  rw [← Rules.exists_ofConfig_eq_ok_of_validate h]
  cases hRules : Rules.ofConfig config with
  | ok rules =>
      rw [run_of_rules hPlace hRules]
      exact ⟨⟨fun _ => ⟨rules, rfl⟩, fun _ => ⟨_, rfl⟩⟩, fun e hError => by cases hError⟩
  | error fault =>
      rw [run_of_fault hPlace hRules]
      refine ⟨⟨fun ⟨_, hSurvey⟩ => (by cases hSurvey), fun ⟨_, hOk⟩ => (by cases hOk)⟩, ?_⟩
      intro e hError
      cases hError
      rcases Rules.of_ofConfig_eq_error_of_validate h hRules with ⟨cause, rfl, hCause⟩ | ⟨signature, rfl⟩
      · exact Or.inl ⟨cause, rfl, hCause⟩
      · exact Or.inr ⟨signature, rfl⟩

end

/-- A signature of many copies of one letter, each of which takes more room in both cases. -/
def largeSignature : Config where
  extraFrameworks := (∅ : Dictionary (List String)).insert "X" ["[a]\x7b200000\x7d"]

theorem largeSignature_not_surveyed :
    largeSignature.validate = .ok () ∧
      ¬∃ survey, run Disk.empty "/" largeSignature .epoch = .ok survey := by
  have hRoot : Disk.empty.isDirectory "/" = true := by decide +kernel
  have hValid : largeSignature.validate = .ok () := by decide +kernel
  have hLarge : Regex.parse true "[a]\x7b200000\x7d" = .error .tooLarge := rfl
  refine ⟨hValid, ?_⟩
  intro hSurvey
  obtain ⟨_, hFit⟩ := (run_of_validate hRoot hValid).1.1 hSurvey
  exact hFit ("X", ["[a]\x7b200000\x7d"]) List.mem_cons_self _ List.mem_cons_self hLarge

end Survey

end SourceSurvey
