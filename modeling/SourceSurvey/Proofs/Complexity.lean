import SourceSurvey.Complexity
import SourceSurvey.Proofs.Text.Utf8

/-!
Scores and line counts: a score is at most 100, only the empty text has no lines, and a text from
bytes has one line more than they have line feeds.
-/

namespace SourceSurvey

namespace Complexity

theorem score_le (content : String) : score content ≤ 100 := Nat.min_le_left _ _

/-- Only the empty text has no lines. -/
theorem lineCount_eq_zero_iff {content : String} : lineCount content = 0 ↔ content = "" := by
  rw [lineCount]
  split
  · rename_i hEmpty
    simpa using hEmpty
  · rename_i hText
    simpa using hText

/-- The lines of a file can be counted in its bytes, also where these are no text. -/
theorem lineCount_ofBytes (bytes : List UInt8) :
    lineCount (Text.ofBytes bytes) = if bytes = [] then 0 else bytes.count 0x0A + 1 := by
  simp only [lineCount, String.isEmpty_iff, Text.ofBytes_eq_empty_iff, Text.count_ofBytes]

end Complexity

end SourceSurvey
