import SourceSurvey.Regex.Basic

/-!
How much room an expression takes as an automaton that reads bytes. A counted repetition stands for
as many copies as it counts, so a short expression can be a large automaton. The numbers are
estimates: 32 bytes a state, 8 a way from state to state, 4 a branch.
-/

namespace SourceSurvey

namespace CharSet

/-- What a set takes beyond the least for any set: a way for each piece in ASCII, a chain of states
for each piece outside. To ignore case doubles the former, and adds the variants that two letters of
ASCII have outside. -/
def pieces : CharSet → Nat
  | none => 0
  | any => 900
  | oneOf chars =>
    chars.foldr (fun c n => (if c.toNat < 128 then 8 else 32 * c.utf8Size + 4) + n) 0
  | range _ last => if last.toNat < 128 then 8 else 300
  | satisfying room _ => room
  | union a b | inter a b => a.pieces + b.pieces
  | compl a => a.pieces + 928
  | ignoringCase a =>
    a.pieces + 8 + (if a.contains 's' || a.contains 'S' then 68 else 0) +
      (if a.contains 'k' || a.contains 'K' then 100 else 0)

/-- The automaton of a set; a single character is a chain of its bytes. -/
def room : CharSet → Nat
  | oneOf [c] | union none (oneOf [c]) => 32 * c.utf8Size
  | s => 64 + s.pieces

end CharSet

/-- Copies of an automaton: as many as there must be, and branches around those that may be. -/
def Bounds.room (bounds : Bounds) (copy : Nat) : Nat :=
  bounds.least * copy + match bounds.most with
    | none => 40 + if bounds.least = 0 then copy else 0
    | some most => if most ≤ bounds.least then 0 else 32 + (most - bounds.least) * (copy + 40)

namespace Regex

/-- The automaton of an expression. -/
def room : Regex → Nat
  | empty => 0
  | anchor _ => 32
  | set s => s.room
  | seq r s => r.room + s.room
  | alt r s => r.room + s.room + 72
  | span s bounds => bounds.room s.room
  | «repeat» r bounds => if r.canRead then bounds.room r.room else r.room
  | group _ r => r.room + 64

end Regex

end SourceSurvey
