import SourceSurvey.Regex.Parser
import SourceSurvey.Regex.Room

/-!
The engine that expressions are read for and matched by: some properties of characters by their
names, sizes as they are estimated, and matches found by trying alternatives.
-/

namespace SourceSurvey.Regex

/-- Properties of characters, by names in lower case and without separators. -/
def property : String → Option CharSet
  | "any" => some .any
  | "ascii" => some (.ascii fun _ => true)
  | "alphabetic" | "alpha" => some (.satisfying 41556 Text.isAlphabetic)
  | "l" | "letter" => some (.satisfying 41112 Text.isLetter)
  | "lu" | "uppercaseletter" | "uppercase" | "upper" => some (.satisfying 26220 Text.isCapital)
  | "ll" | "lowercaseletter" | "lowercase" | "lower" => some (.satisfying 27224 Text.isSmall)
  | "m" | "mark" | "combiningmark" => some (.satisfying 17388 (Text.Run.mem Text.markRuns))
  | "nd" | "decimalnumber" | "digit" => some .digit
  | "nl" | "letternumber" => some (.satisfying 1048 (Text.Run.mem Text.letterNumberRuns))
  | "pc" | "connectorpunctuation" => some (.satisfying 476 (Text.Run.mem Text.connectorRuns))
  | "whitespace" | "space" | "wspace" => some .blank
  | _ => none

instance : Engine where
  property? name :=
    property (String.ofList ((name.filter fun c => c ≠ ' ' ∧ c ≠ '_' ∧ c ≠ '-').map Char.toLower))
  fits r := r.room ≤ maxRoom
  matchAt? := firstMatch?

end SourceSurvey.Regex
