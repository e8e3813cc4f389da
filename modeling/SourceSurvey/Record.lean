import SourceSurvey.Facts
import SourceSurvey.Language
import SourceSurvey.Tag
import SourceSurvey.Timestamp

namespace SourceSurvey

/-- What is known about a file. -/
structure Record where
  /-- The names on the way from the root, joined by slashes. -/
  path : String
  size : Nat
  lineCount : Nat
  /-- The extension with its dot, empty if there is none. -/
  fileType : String
  language : Language
  imports : List String
  types : List String
  callables : List String
  exports : List String
  tags : List Tag
  complexity : Nat
  status : Status
  modified : Option Timestamp
deriving DecidableEq

namespace Record

/-- The records with a score above a threshold, the highest first. Records with the same score stay
in order. -/
def rankedAbove (records : List Record) (threshold : Nat) : List Record :=
  (records.filter (threshold < ·.complexity)).mergeSort fun a b => b.complexity ≤ a.complexity

end Record

end SourceSurvey
