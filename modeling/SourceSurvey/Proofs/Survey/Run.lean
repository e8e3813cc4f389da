import SourceSurvey.Glob.Room
import SourceSurvey.Proofs.Disk.Way
import SourceSurvey.Proofs.Except
import SourceSurvey.Regex.Standard
import SourceSurvey.Survey

/-!
When a project is surveyed: its root is a directory and the settings give rules. All else follows
without failure.
-/

namespace SourceSurvey.Survey

/-- What a survey is made of, when all names are texts. -/
theorem ofPlace_def [Regex.Engine] (disk : Disk) (place : List String) (rules : Rules)
    (thresholds : Thresholds) (timestamp : Timestamp) :
    ofPlace disk place rules thresholds timestamp =
      let root := Disk.pathOf place
      let walked := walk disk rules.filter place
      let accepted := walked.filter fun found => rules.accepts (relativePath found)
      let records := accepted.map fun found =>
        rules.record (relativePath found) found.bytes found.modified
      let summary := Summary.aggregate disk root rules.filter (walked.map relativePath) records
        (accepted.flatMap fun found => rules.frameworks found.bytes)
      ⟨records, summary, Context.synthesize records summary thresholds timestamp⟩ := rfl

section

variable {τ : Type} [DecidableEq τ] [LT τ] [PathText τ] {disk : Disk τ} {root : τ} {place : List τ}
  {config : Config} {timestamp : Timestamp} {survey : Survey}

/-- The root of a survey is where its path is located, and a directory. -/
theorem rootPlace_eq_ok_iff :
    rootPlace disk root = .ok place ↔ disk.locate root = .ok place ∧ disk.IsDirectoryAt place := by
  rw [rootPlace]
  cases hLocate : disk.locate root with
  | error => simp [throw, throwThe, MonadExceptOf.throw]
  | ok there =>
      constructor
      · intro h
        cases hAt : disk.root.at? there with
        | none => simp [hAt, throw, throwThe, MonadExceptOf.throw] at h
        | some e =>
            cases e with
            | file => simp [hAt, throw, throwThe, MonadExceptOf.throw] at h
            | link => simp [hAt, throw, throwThe, MonadExceptOf.throw] at h
            | directory entries =>
                simp only [hAt] at h
                cases h
                exact ⟨rfl, entries, hAt⟩
      · intro h
        obtain ⟨hThere, entries, hAt⟩ := h
        cases hThere
        simp only [hAt]
        rfl

variable [Regex.Engine] [Glob.Engine]

/-- A survey cannot fail any more once there are a root and rules. -/
theorem run_of_rules {rules : Rules} (hPlace : rootPlace disk root = .ok place)
    (hRules : Rules.ofConfig config = .ok rules) :
    run disk root config timestamp =
      .ok (ofPlace disk place rules config.thresholds timestamp) := by
  rw [run, hPlace, hRules]
  rfl

/-- Without rules there is no survey, whatever is at the root. -/
theorem run_of_fault {fault : Rules.Fault} (hPlace : rootPlace disk root = .ok place)
    (hFault : Rules.ofConfig config = .error fault) :
    run disk root config timestamp = .error (.rules fault) := by
  rw [run, hPlace, hFault]
  rfl

/-- Every survey is one of some place by some rules. -/
theorem run_eq_ok_iff :
    run disk root config timestamp = .ok survey ↔
      ∃ place rules, rootPlace disk root = .ok place ∧ Rules.ofConfig config = .ok rules ∧
        ofPlace disk place rules config.thresholds timestamp = survey := by
  rw [run]
  simp only [Except.bind_eq_ok_iff, Except.mapError_eq_ok_iff]
  constructor
  · intro h
    obtain ⟨place, hPlace, rules, hRules, hSurvey⟩ := h
    exact ⟨place, rules, hPlace, hRules, Except.ok.inj hSurvey⟩
  · intro h
    obtain ⟨place, rules, hPlace, hRules, rfl⟩ := h
    exact ⟨place, hPlace, rules, hRules, rfl⟩

end

end SourceSurvey.Survey
