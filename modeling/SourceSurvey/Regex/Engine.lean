import SourceSurvey.Regex.Match

/-!
What is left to the library of regular expressions, and the search for all matches in a text. Of all
places where a match can begin the leftmost one counts.
-/

namespace SourceSurvey

namespace Regex

/-- A library of regular expressions: the properties of characters it knows by name, the expressions
that are small enough for it, and what an expression matches at a place. -/
class Engine where
  property? : List Char → Option CharSet
  fits : Regex → Bool
  matchAt? : Regex → Cursor → Option Match

export Engine (matchAt?)

variable [Engine]

/-- The leftmost match at or after a place, with the text that follows the place where it begins. -/
def findFrom? (r : Regex) (before : Option Char) (index : Nat) : List Char →
    Option (Match × Cursor)
  | [] => (matchAt? r ⟨before, index, []⟩).map (·, ⟨before, index, []⟩)
  | c :: rest =>
    match matchAt? r ⟨before, index, c :: rest⟩ with
    | some m => some (m, ⟨before, index, c :: rest⟩)
    | none => findFrom? r (some c) (index + 1) rest

/-- Whether the expression matches somewhere in the text. -/
def isMatch (r : Regex) (text : List Char) : Bool := (findFrom? r none 0 text).isSome

/-- The matches from left to right, none overlapping the one before it. An empty match right at
the end of the previous match does not count: the search goes on one character later. -/
def matchesFrom (r : Regex) (lastStop : Option Nat) : (fuel : Nat) → Cursor → List Match
  | 0, _ => []
  | fuel + 1, cur =>
    match findFrom? r cur.before cur.index cur.rest with
    | none => []
    | some (m, place) =>
      if m.start = m.stop ∧ lastStop = some m.stop then
        match cur.advance? with
        | none => []
        | some cur' => matchesFrom r none fuel cur'
      else m :: matchesFrom r (some m.stop) fuel (place.skipTo m.stop)

/-- All matches in a text: each but the first starts after an earlier one has ended or moved on,
so there are at most twice as many steps as places. -/
def allMatches (r : Regex) (text : List Char) : List Match :=
  matchesFrom r none (2 * text.length + 2) (Cursor.start text)

/-- What the first group captured in each match where it took part. -/
def firstGroups (r : Regex) (text : List Char) : List (List Char) :=
  (allMatches r text).filterMap (·.group? 1 text)

end Regex

end SourceSurvey
