import SourceSurvey.Syntax.Tree
import SourceSurvey.Tally

/-!
Queries for the children of nodes. What a query captures is known with the byte at which it begins, and
is listed in this order.
-/

namespace SourceSurvey.Syntax

/-- How many bytes a text has in UTF-8. -/
def byteLength (cs : List Char) : Nat := total (cs.map Char.utf8Size)

namespace Tree

/-- A part of a tree with the nodes around it and the number of bytes before it. The gap before it is
its own. -/
structure Site extends Place where
  offset : Nat

mutual

/-- All parts of a tree in document order, each before its own parts. -/
def sites (offset : Nat) (above : List Tree) : Tree → List Site
  | leaf kind role gap text => [⟨⟨leaf kind role gap text, above⟩, offset⟩]
  | node kind role children =>
    ⟨⟨node kind role children, above⟩, offset⟩ ::
      sitesAll offset (node kind role children :: above) children

def sitesAll (offset : Nat) (above : List Tree) : List Tree → List Site
  | [] => []
  | t :: ts => sites offset above t ++ sitesAll (offset + byteLength t.source) above ts

end

/-- Trees beside each other, without their parts. -/
def siblings (offset : Nat) (above : List Tree) : List Tree → List Site
  | [] => []
  | t :: ts => ⟨⟨t, above⟩, offset⟩ :: siblings (offset + byteLength t.source) above ts

namespace Site

def children (s : Site) : List Site := siblings s.offset (s.tree :: s.above) s.tree.children

/-- The first child in a role. -/
def child? (role : Role) (s : Site) : Option Site := s.children.find? (·.role = some role)

/-- How many bytes are before the part, the gap before it included. -/
def start (s : Site) : Nat := s.offset + byteLength (s.tree.source.take s.tree.gapLength)

/-- The text of a part with where it begins. -/
def entry (s : Site) : Nat × String := (s.start, s.text)

end Site

end Tree

open Syntax.Tree

/-! ### Patterns -/

/-- A pattern for nodes of a kind that have a child of a kind in some role. It may ask for a value
behind this child, of one of some kinds. -/
structure Pattern where
  node : Kind
  role : Role
  child : Kind
  value : Option (List Kind)

namespace Pattern

def fits (pattern : Pattern) (s : Site) : Bool :=
  s.role = some pattern.role && s.kind = pattern.child

/-- In how many ways the pattern goes on behind the child. -/
def ways (pattern : Pattern) (later : List Site) : Nat :=
  match pattern.value with
  | none => 1
  | some kinds => later.countP fun s => s.role = some .value && kinds.contains s.kind

/-- What the pattern captures of the children of a node: a child as often as there are ways in which
the pattern matches with it. -/
def among (pattern : Pattern) : (children : List Site) → List Site
  | [] => []
  | s :: later =>
    (if pattern.fits s then List.replicate (pattern.ways later) s else []) ++ pattern.among later

/-- What the pattern captures at a node. -/
def captures (pattern : Pattern) (s : Site) : List Site :=
  if s.kind = pattern.node then pattern.among s.children else []

end Pattern

/-- What some patterns capture at a node. -/
def capturedAt (patterns : List Pattern) (s : Site) : List (Nat × String) :=
  (patterns.flatMap (·.captures s)).map Site.entry

/-- What some patterns capture in a tree. -/
def captured (patterns : List Pattern) (t : Tree) : List (Nat × String) :=
  (t.sites 0 []).flatMap (capturedAt patterns)

/-- Texts in the order in which they begin, those that begin together in the order in which they were
found. -/
def inSourceOrder (found : List (Nat × String)) : List String :=
  (found.mergeSort fun entry later => entry.1 ≤ later.1).map (·.2)

end SourceSurvey.Syntax
