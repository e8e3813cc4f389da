import SourceSurvey.Config
import SourceSurvey.Proofs.Except

/-!
What settings without fault are: rules that can be read and capture something, signatures and
patterns that can be read, and thresholds within bounds.
-/

namespace SourceSurvey.Config

variable [Regex.Engine]

/-- A further rule passes if it is an expression with a group. How many groups there are is not
asked. -/
theorem checkRule_eq_ok_iff {pattern : String} :
    checkRule pattern = .ok () ↔
      ∃ r, Regex.parse false pattern = .ok r ∧ r.groupCount ≠ 0 := by
  rw [checkRule]
  simp only [Except.bind_eq_ok_iff, Except.mapError_eq_ok_iff]
  apply exists_congr
  intro r
  apply and_congr_right
  intro _
  by_cases hGroups : r.groupCount = 0
  · simp [hGroups, throw, throwThe, MonadExceptOf.throw]
  · simp [hGroups, pure, Except.pure]

/-- A signature passes if it is an expression, which is read with letter case although it will be
used without. -/
theorem checkSignature_eq_ok_iff {framework signature : String} :
    checkSignature framework signature = .ok () ↔ ∃ r, Regex.parse false signature = .ok r := by
  rw [checkSignature]
  simp only [Except.bind_eq_ok_iff, Except.mapError_eq_ok_iff]
  exact exists_congr fun r => and_iff_left rfl

omit [Regex.Engine] in
theorem checkExcludedPath_eq_ok_iff {pattern : String} :
    checkExcludedPath pattern = .ok () ↔ ∃ glob, Glob.parse pattern = .ok glob := by
  rw [checkExcludedPath]
  simp only [Except.bind_eq_ok_iff, Except.mapError_eq_ok_iff]
  exact exists_congr fun glob => and_iff_left rfl

/-- Settings are valid if each part of them is. -/
theorem validate_eq_ok_iff {c : Config} :
    c.validate = .ok () ↔
      (∀ category ∈ Tag.Category.all, ∀ pattern ∈ c.extraRules.ofCategory category,
        ∃ r, Regex.parse false pattern = .ok r ∧ r.groupCount ≠ 0) ∧
      (∀ entry ∈ c.extraFrameworks.entries, ∀ signature ∈ entry.2,
        ∃ r, Regex.parse false signature = .ok r) ∧
      (∀ pattern ∈ c.excludedPaths, ∃ glob, Glob.parse pattern = .ok glob) ∧
      checkThresholds c.thresholds = .ok () := by
  rw [validate]
  simp only [Except.bind_eq_ok_iff]
  constructor
  · intro h
    obtain ⟨_, hRules, _, hSignatures, _, hPaths, hThresholds⟩ := h
    refine ⟨?_, ?_, ?_, hThresholds⟩
    · intro category hCategory pattern hPattern
      have hMem := List.mem_flatMap.2 ⟨category, hCategory, hPattern⟩
      exact checkRule_eq_ok_iff.1 (Except.forM_eq_ok_iff.1 hRules pattern hMem)
    · intro entry hEntry signature hSignature
      have hAll := Except.forM_eq_ok_iff.1 (Except.forM_eq_ok_iff.1 hSignatures entry hEntry)
      exact checkSignature_eq_ok_iff.1 (hAll signature hSignature)
    · intro pattern hPattern
      exact checkExcludedPath_eq_ok_iff.1 (Except.forM_eq_ok_iff.1 hPaths pattern hPattern)
  · intro h
    obtain ⟨hRules, hSignatures, hPaths, hThresholds⟩ := h
    refine ⟨(), Except.forM_eq_ok_iff.2 ?_, (), Except.forM_eq_ok_iff.2 ?_, (),
      Except.forM_eq_ok_iff.2 ?_, hThresholds⟩
    · intro pattern hPattern
      obtain ⟨category, hCategory, hPattern⟩ := List.mem_flatMap.1 hPattern
      exact checkRule_eq_ok_iff.2 (hRules category hCategory pattern hPattern)
    · intro entry hEntry
      apply Except.forM_eq_ok_iff.2
      intro signature hSignature
      exact checkSignature_eq_ok_iff.2 (hSignatures entry hEntry signature hSignature)
    · intro pattern hPattern
      exact checkExcludedPath_eq_ok_iff.2 (hPaths pattern hPattern)

end SourceSurvey.Config
