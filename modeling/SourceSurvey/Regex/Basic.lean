import SourceSurvey.Text.Letter
import SourceSurvey.Text.Case
import SourceSurvey.Text.Blank

/-!
Regular expressions over characters: their shape and the sets of characters they are built from.
-/

namespace SourceSurvey

/-- A set of characters, as written in a class such as `[a-z&&[^x]]`. -/
inductive CharSet where
  | none
  | any
  | oneOf (chars : List Char)
  | range (first last : Char)
  /-- The characters of which `p` holds. An automaton for them takes `room` bytes beyond the least
  for any set. -/
  | satisfying (room : Nat) (p : Char → Bool)
  | union (a b : CharSet)
  | inter (a b : CharSet)
  | compl (a : CharSet)
  /-- Closed under changes of letter case. -/
  | ignoringCase (a : CharSet)

namespace CharSet

def contains : CharSet → Char → Bool
  | none, _ => false
  | any, _ => true
  | oneOf chars, c => chars.contains c
  | range first last, c => first ≤ c && c ≤ last
  | satisfying _ p, c => p c
  | union a b, c => a.contains c || b.contains c
  | inter a b, c => a.contains c && b.contains c
  | compl a, c => !a.contains c
  | ignoringCase a, c => (Text.caseVariants c).any a.contains

/-- The characters of exactly one of the two sets. -/
def symmDiff (a b : CharSet) : CharSet := union (inter a (compl b)) (inter b (compl a))

def digit : CharSet := satisfying 4440 Text.isDigit

def blank : CharSet := satisfying 616 Text.isBlank

def word : CharSet := satisfying 47480 Text.isWord

/-- Some characters of ASCII, in not more than four runs. -/
def ascii (p : Char → Bool) : CharSet := satisfying 32 fun c => c.toNat < 128 && p c

end CharSet

/-- A condition on a place between two characters. -/
inductive Anchor where
  | textStart
  | textEnd
  | lineStart
  | lineEnd
  /-- The start of a line where carriage returns and line feeds, alone or together, end lines. -/
  | brokenLineStart
  | brokenLineEnd
  | wordBoundary (isWord : Char → Bool)
  | notWordBoundary (isWord : Char → Bool)
  | wordStart (isWord : Char → Bool)
  | wordEnd (isWord : Char → Bool)
  | wordStartHalf (isWord : Char → Bool)
  | wordEndHalf (isWord : Char → Bool)

/-- Whether the anchor holds between the characters `before` and `after`; no character means the
end of the text on that side. -/
def Anchor.holds (before after : Option Char) : Anchor → Bool
  | textStart => before.isNone
  | textEnd => after.isNone
  | lineStart => before.isNone || before = some '\n'
  | lineEnd => after.isNone || after = some '\n'
  | brokenLineStart =>
    before.isNone || before = some '\n' || (before = some '\r' && after ≠ some '\n')
  | brokenLineEnd => after.isNone || after = some '\r' || (after = some '\n' && before ≠ some '\r')
  | wordBoundary isWord => before.any isWord != after.any isWord
  | notWordBoundary isWord => before.any isWord == after.any isWord
  | wordStart isWord => !before.any isWord && after.any isWord
  | wordEnd isWord => before.any isWord && !after.any isWord
  | wordStartHalf isWord => !before.any isWord
  | wordEndHalf isWord => !after.any isWord

/-- How often something may be repeated, and whether more or fewer repetitions are tried first. -/
structure Bounds where
  least : Nat
  most : Option Nat
  greedy : Bool

/-- The bounds for what cannot read: once is as good as many times. -/
def Bounds.once (bounds : Bounds) : Bounds where
  least := min bounds.least 1
  most := some ((bounds.most.map (min 1)).getD 1)
  greedy := bounds.greedy

inductive Regex where
  | empty
  | set (s : CharSet)
  | anchor (a : Anchor)
  | seq (r s : Regex)
  | alt (r s : Regex)
  /-- Repetition of a single character of the set. -/
  | span (s : CharSet) (bounds : Bounds)
  | repeat (r : Regex) (bounds : Bounds)
  | group (number : Nat) (r : Regex)

namespace Regex

/-- The number of capture groups, the whole match not counted. -/
def groupCount : Regex → Nat
  | seq r s | alt r s => r.groupCount + s.groupCount
  | «repeat» r _ => r.groupCount
  | group _ r => r.groupCount + 1
  | empty | set _ | anchor _ | span _ _ => 0

/-- Whether the expression can match anything but the empty text. -/
def canRead : Regex → Bool
  | empty | anchor _ => false
  | set _ | span _ _ => true
  | seq r s | alt r s => r.canRead || s.canRead
  | «repeat» r _ | group _ r => r.canRead

/-- Whether the expression can match without reading a character. -/
def canBeEmpty : Regex → Bool
  | empty | anchor _ => true
  | set _ => false
  | span _ bounds => bounds.least == 0
  | seq r s => r.canBeEmpty && s.canBeEmpty
  | alt r s => r.canBeEmpty || s.canBeEmpty
  | «repeat» r bounds => r.canBeEmpty || bounds.least == 0
  | group _ r => r.canBeEmpty

/-- Whether something that can be empty may be repeated without end. -/
def hasEmptyLoop : Regex → Bool
  | empty | anchor _ | set _ | span _ _ => false
  | seq r s | alt r s => r.hasEmptyLoop || s.hasEmptyLoop
  | «repeat» r bounds =>
    r.hasEmptyLoop || (bounds.most.isNone && r.canRead && r.canBeEmpty)
  | group _ r => r.hasEmptyLoop

/-- The text itself, character by character. -/
def literal (text : List Char) : Regex :=
  text.foldr (fun c r => seq (set (.oneOf [c])) r) empty

end Regex

end SourceSurvey
