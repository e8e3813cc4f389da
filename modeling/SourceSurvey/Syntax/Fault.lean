import SourceSurvey.Syntax.Tree

/-!
Where the fault of a text is that cannot be read. Reading stops at some token, and the fault is the
run of tokens, just before it or from it on, that is cheapest to leave out so that the text can be
read.
-/

namespace SourceSurvey.Syntax

/-- A run of tokens in a text: how many there are, and where they begin and end. -/
structure Stretch where
  count : Nat
  start : Nat
  stop : Nat

namespace Stretch

/-- What it costs to leave the tokens out. -/
def cost (text : List Char) (s : Stretch) : Nat :=
  100 * s.count + (s.stop - s.start) +
    30 * (((text.drop s.start).take (s.stop - s.start)).filter (· = '\n')).length

/-- The text without the tokens. -/
def leftOut (text : List Char) (s : Stretch) : List Char := text.take s.start ++ text.drop s.stop

/-- The runs of tokens that end with the tokens `before` an offset, or begin with those `behind`
it. Tokens are given by where they begin and end. -/
def around (before behind : List (Nat × Nat)) (offset : Nat) : List Stretch :=
  let stop := (before.getLast?.map (·.2)).getD offset
  before.reverse.zipIdx.map (fun (bounds, n) => ⟨n + 1, bounds.1, stop⟩) ++
    behind.zipIdx.map fun (bounds, n) => ⟨n + 1, offset, bounds.2⟩

/-- The cheapest run of tokens without which the text can be read, the first of equals. -/
def cheapest? (reads : List Char → Bool) (text : List Char) (stretches : List Stretch) :
    Option Stretch :=
  (stretches.filter fun s => reads (s.leftOut text)).foldl (fun best s =>
    match best with
    | some b => if s.cost text < b.cost text then some s else some b
    | none => some s) none

end Stretch

/-- Where the fault of a text is, if leaving out up to twelve tokens before the offset where reading
stopped, or up to six from there on, lets the text be read. `bounds` gives where so many tokens
from an offset on begin and end, `start` is the beginning of the statement that was being read. -/
def mendedFault? (reads : List Char → Bool) (bounds : (limit offset : Nat) → List (Nat × Nat))
    (text : List Char) (start offset : Nat) : Option Nat :=
  let earlier := (bounds text.length start).filter (·.2 ≤ offset)
  let before := earlier.drop (earlier.length - 12)
  (Stretch.cheapest? reads text (Stretch.around before (bounds 6 offset) offset)).map (·.start)

/-- The tree of a text with a fault: what is before the fault, and the fault. -/
def Tree.faulty (kind : Kind) (before after : List Char) : Tree :=
  .node .program none
    [.leaf .token none "" (String.ofList before), .leaf kind none "" (String.ofList after)]

end SourceSurvey.Syntax
