import SourceSurvey.Glob.Set
import SourceSurvey.Proofs.Except
import Mathlib.Tactic.SplitIfs

/-!
When patterns can be matched together: each of them can be read, and none is nested too deeply or is
too large, by itself or along with others.
-/

namespace SourceSurvey.Glob

variable [Engine]

/-- Plain texts always fit. Of the other patterns, those with an extension are matched one by one,
the rest by one expression. -/
structure Fits (globs : List Glob) : Prop where
  depth : ∀ glob ∈ globs, isText glob = false → glob.depth ≤ Regex.maxDepth
  alone : ∀ glob ∈ globs, isText glob = false → hasExtension glob = true → Engine.fit [glob] = true
  together : Engine.fit ((globs.filter (!isText ·)).filter (!hasExtension ·)) = true

theorem checkAlone_eq_ok_iff {glob : Glob} :
    checkAlone glob = .ok () ↔ glob.depth ≤ Regex.maxDepth ∧ Engine.fit [glob] = true := by
  rw [checkAlone]
  split
  · simp
    omega
  · cases Engine.fit [glob]
    · simp
    · simp
      omega

theorem checkTogether_eq_ok_iff {globs : List Glob} :
    checkTogether globs = .ok () ↔
      (∀ glob ∈ globs, glob.depth ≤ Regex.maxDepth) ∧ Engine.fit globs = true := by
  rw [checkTogether]
  cases hDeep : globs.findIdx? (Regex.maxDepth < ·.depth) with
  | some number =>
      have hSome := congrArg Option.isSome hDeep
      rw [List.findIdx?_isSome, Option.isSome_some, List.any_eq_true] at hSome
      obtain ⟨glob, hMem, hDepth⟩ := hSome
      have hTooDeep : ¬glob.depth ≤ Regex.maxDepth := by simpa using hDepth
      simp only [reduceCtorEq, false_iff]
      exact fun h => hTooDeep (h.1 glob hMem)
  | none =>
      rw [List.findIdx?_eq_none_iff] at hDeep
      have hDepth : ∀ glob ∈ globs, glob.depth ≤ Regex.maxDepth := by simpa using hDeep
      simp only [ite_eq_right_iff, reduceCtorEq, imp_false, Bool.not_eq_true', Bool.not_eq_false]
      exact (and_iff_right hDepth).symm

/-- Patterns fit when each with an extension does by itself, and all others do together. Those that
are plain texts are never compiled. -/
theorem fits_iff {globs : List Glob} :
    Fits globs ↔
      (∀ glob ∈ (globs.filter (!isText ·)).filter hasExtension, checkAlone glob = .ok ()) ∧
      checkTogether ((globs.filter (!isText ·)).filter (!hasExtension ·)) = .ok () := by
  simp only [checkAlone_eq_ok_iff, checkTogether_eq_ok_iff, List.mem_filter, Bool.not_eq_true']
  constructor
  · intro h
    obtain ⟨hDepth, hAlone, hTogether⟩ := h
    exact ⟨fun glob h => ⟨hDepth glob h.1.1 h.1.2, hAlone glob h.1.1 h.1.2 h.2⟩,
      fun glob h => hDepth glob h.1.1 h.1.2, hTogether⟩
  · intro h
    obtain ⟨hAlone, hDepth, hTogether⟩ := h
    refine ⟨?_, ?_, hTogether⟩
    · intro glob hMem hText
      cases hExtension : hasExtension glob with
      | true => exact (hAlone glob ⟨⟨hMem, hText⟩, hExtension⟩).1
      | false => exact hDepth glob ⟨⟨hMem, hText⟩, hExtension⟩
    · intro glob hMem hText hExtension
      exact (hAlone glob ⟨⟨hMem, hText⟩, hExtension⟩).2

/-- A set is accepted when all patterns can be read and fit. -/
theorem parseSet_eq_ok_iff {patterns : List String} {globs : List Glob} :
    parseSet patterns = .ok globs ↔ patterns.mapM parse = .ok globs ∧ Fits globs := by
  rw [fits_iff, parseSet]
  simp only [Except.bind_eq_ok_iff, Except.mapError_eq_ok_iff]
  constructor
  · intro h
    obtain ⟨read, hRead, _, hAlone, _, hTogether, hSame⟩ := h
    cases hSame
    exact ⟨hRead, Except.forM_eq_ok_iff.1 hAlone, hTogether⟩
  · intro h
    obtain ⟨hRead, hAlone, hTogether⟩ := h
    exact ⟨globs, hRead, (), Except.forM_eq_ok_iff.2 hAlone, (), hTogether, rfl⟩

/-- Of the faults of a set only one is that of a single pattern. -/
theorem of_parseSet_eq_pattern {patterns : List String} {e : SyntaxError}
    (h : parseSet patterns = .error (.pattern e)) : patterns.mapM parse = .error e := by
  rw [parseSet] at h
  simp only [Except.bind_eq_error_iff, Except.mapError_eq_error_iff] at h
  rcases h with ⟨cause, hCause, hSame⟩ | ⟨_, _, hAlone | ⟨_, _, hTogether | ⟨_, _, hPure⟩⟩⟩
  · cases hSame
    exact hCause
  · obtain ⟨glob, _, hGlob⟩ := Except.exists_of_forM_eq_error hAlone
    rw [checkAlone] at hGlob
    split_ifs at hGlob
    all_goals cases hGlob
  · rw [checkTogether] at hTogether
    split at hTogether
    · cases hTogether
    · split_ifs at hTogether
      all_goals cases hTogether
  · cases hPure

end SourceSurvey.Glob
