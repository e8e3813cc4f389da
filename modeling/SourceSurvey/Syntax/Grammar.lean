import SourceSurvey.Syntax.Tree

/-!
Grammars whose alternatives are ordered: the first one that fits is taken. A rule reads tokens
from a cursor and adds the trees it builds to those built before it in the same node.
-/

namespace SourceSurvey.Syntax

/-- A rule over terminals `τ` and the names `ν` of other rules. -/
inductive Rule (τ ν : Type) where
  | terminal (terminal : τ)
  | call (name : ν)
  | sequence (rules : List (Rule τ ν))
  /-- The first of the rules that fits. -/
  | choice (rules : List (Rule τ ν))
  /-- A rule as often as it fits. -/
  | many (rule : Rule τ ν)
  /-- Nothing, where a rule does not fit. -/
  | without (rule : Rule τ ν)
  /-- Nothing, where the tree built last is of one of some kinds. -/
  | built (kinds : List Kind)
  /-- A node around what a rule builds. -/
  | node (kind : Kind) (rule : Rule τ ν)
  /-- What a rule builds, in a role. -/
  | within (role : Role) (rule : Rule τ ν)
  /-- A node around the tree built last and what a rule adds to it. The tree is of one of some
  kinds, or of any if there are none, and takes a role. -/
  | onto (kind : Kind) (role : Option Role) (operands : List Kind) (rule : Rule τ ν)

namespace Rule

variable {τ ν : Type}

/-- Nothing. -/
def empty : Rule τ ν := sequence []

def optional (rule : Rule τ ν) : Rule τ ν := choice [rule, empty]

def many1 (rule : Rule τ ν) : Rule τ ν := sequence [rule, many rule]

/-- A rule at least once, with another one between. -/
def separated (separator rule : Rule τ ν) : Rule τ ν :=
  sequence [rule, many (sequence [separator, rule])]

/-- Nothing, where a rule fits. -/
def ahead (rule : Rule τ ν) : Rule τ ν := without (without rule)

end Rule

/-- How the rules and the terminals of a language are read from a cursor. -/
structure Grammar (τ ν σ : Type) where
  rule : ν → Rule τ ν
  /-- What a terminal reads, if it fits. -/
  read : τ → σ → Option (List Tree × σ)
  /-- How much of the text has been read at a cursor. -/
  position : σ → Nat
  /-- Where the next token begins. -/
  offset : σ → Nat

/-- What has been read: the trees built in the present node, latest first, the cursor behind them,
and the furthest cursor at which something did not fit. -/
structure Progress (σ : Type) where
  built : List Tree
  cursor : σ
  furthest : σ

inductive Outcome (σ : Type) where
  | fits (progress : Progress σ)
  | fails (furthest : σ)

namespace Grammar

variable {τ ν σ : Type}

/-- The outcome where something does not fit at the cursor. -/
def failsAt (g : Grammar τ ν σ) (p : Progress σ) : Outcome σ :=
  .fails (if g.offset p.furthest ≤ g.offset p.cursor then p.cursor else p.furthest)

mutual

/-- Read a rule. The fuel bounds the depth of the reading. -/
def run (g : Grammar τ ν σ) : (fuel : Nat) → Rule τ ν → Progress σ → Outcome σ
  | 0, _, p => .fails p.furthest
  | _ + 1, .terminal terminal, p =>
    match g.read terminal p.cursor with
    | some (trees, cursor) => .fits { p with built := trees.reverse ++ p.built, cursor := cursor }
    | none => g.failsAt p
  | fuel + 1, .call name, p => g.run fuel (g.rule name) p
  | fuel + 1, .sequence rules, p => g.runSequence fuel rules p
  | fuel + 1, .choice rules, p => g.runChoice fuel rules p
  | fuel + 1, .many rule, p => g.runMany fuel rule p
  | fuel + 1, .without rule, p =>
    match g.run fuel rule p with
    | .fits _ => g.failsAt p
    | .fails _ => .fits p
  | _ + 1, .built kinds, p =>
    match p.built with
    | last :: _ => if kinds.contains last.kind then .fits p else g.failsAt p
    | [] => g.failsAt p
  | fuel + 1, .node kind rule, p =>
    match g.run fuel rule { p with built := [] } with
    | .fits q => .fits { q with built := .node kind none q.built.reverse :: p.built }
    | .fails furthest => .fails furthest
  | fuel + 1, .within role rule, p =>
    match g.run fuel rule { p with built := [] } with
    | .fits q => .fits { q with built := q.built.map (·.withRole role) ++ p.built }
    | .fails furthest => .fails furthest
  | fuel + 1, .onto kind role operands rule, p =>
    match p.built with
    | [] => .fails p.furthest
    | operand :: before =>
      if operands.isEmpty || operands.contains operand.kind then
        match g.run fuel rule { p with built := [] } with
        | .fits q =>
          let first := match role with
            | some role => operand.withRole role
            | none => operand
          .fits { q with built := .node kind none (first :: q.built.reverse) :: before }
        | .fails furthest => .fails furthest
      else .fails p.furthest

def runSequence (g : Grammar τ ν σ) : (fuel : Nat) → List (Rule τ ν) → Progress σ → Outcome σ
  | 0, _, p => .fails p.furthest
  | _ + 1, [], p => .fits p
  | fuel + 1, rule :: rules, p =>
    match g.run fuel rule p with
    | .fits q => g.runSequence fuel rules q
    | .fails furthest => .fails furthest

def runChoice (g : Grammar τ ν σ) : (fuel : Nat) → List (Rule τ ν) → Progress σ → Outcome σ
  | 0, _, p => .fails p.furthest
  | _ + 1, [], p => .fails p.furthest
  | fuel + 1, rule :: rules, p =>
    match g.run fuel rule p with
    | .fits q => .fits q
    | .fails furthest => g.runChoice fuel rules { p with furthest := furthest }

/-- Read a rule again and again, until it does not fit or reads nothing. -/
def runMany (g : Grammar τ ν σ) : (fuel : Nat) → Rule τ ν → Progress σ → Outcome σ
  | 0, _, p => .fails p.furthest
  | fuel + 1, rule, p =>
    match g.run fuel rule p with
    | .fits q =>
      if g.position q.cursor ≤ g.position p.cursor then .fits q else g.runMany fuel rule q
    | .fails furthest => .fits { p with furthest := furthest }

end

/-- The depth of reading that a text of some length can need. -/
def fuelFor (length : Nat) : Nat := 300 * (length + 10)

/-- Why a text is not what a rule repeats: the cursor before the first item that does not fit, and
the furthest one at which something in it did not. -/
structure Stop (σ : Type) where
  start : σ
  furthest : σ

/-- Read a rule again and again, up to the end of a text of some length. -/
def parse (g : Grammar τ ν σ) (length : Nat) (first rule : Rule τ ν) (cursor : σ) :
    Except (Stop σ) Tree :=
  match g.run (fuelFor length) (.sequence [first, .many rule]) ⟨[], cursor, cursor⟩ with
  | .fits q =>
    if length ≤ g.offset q.cursor then .ok (.node .program none q.built.reverse)
    else .error ⟨q.cursor, q.furthest⟩
  | .fails furthest => .error ⟨cursor, furthest⟩

end Grammar

end SourceSurvey.Syntax
