import SourceSurvey.Regex.Build
import SourceSurvey.Regex.Standard
import SourceSurvey.Tally

/-!
A score that ranks files by size and by the density of definitions, control flow, error handling
and annotations: a point per ten lines, at most 50, and two points per indicator, 100 in all.
-/

namespace SourceSurvey.Complexity

open Regex

def maxScore : Nat := 100

def maxSizePoints : Nat := 50

def indicators : List Regex :=
  [sequence [text "class", blanks, many word],
    sequence [text "function", blanks, many word],
    sequence [text "def", blanks, many word],
    sequence [text "if", gap, text "("],
    sequence [text "for", gap, text "("],
    sequence [text "while", gap, text "("],
    sequence [text "try", gap, text "\x7b"],
    sequence [text "catch", gap, text "("],
    sequence [text "except", gap, text ":"],
    sequence [text "async", blanks],
    sequence [text "await", blanks],
    text "Promise",
    sequence [text "@", many word],
    sequence [text "#[", any inLine, text "]"]]

/-- The number of lines: one more than there are line feeds, but none in an empty text. -/
def lineCount (content : String) : Nat :=
  if content.isEmpty then 0 else content.toList.count '\n' + 1

/-- How often the indicators occur, each counted without overlaps. -/
def indicatorCount (content : String) : Nat :=
  total (indicators.map fun r => (r.allMatches content.toList).length)

def score (content : String) : Nat :=
  min maxScore (min maxSizePoints (lineCount content / 10) + 2 * indicatorCount content)

end SourceSurvey.Complexity
