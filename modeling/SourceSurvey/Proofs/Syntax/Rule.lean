import SourceSurvey.Proofs.Syntax.Role

/-!
What a rule can be seen to do as it stands: which nodes it builds, what it uses for them, how many
trees it adds, and in which roles. For the rules that it refers to by name only little is supposed, so
that a grammar is looked through rule by rule.
-/

namespace SourceSurvey.Syntax

namespace Rule

variable {τ ν : Type}

/-! ### Nodes -/

mutual

/-- The rules inside a rule that build nodes, those of the rules it refers to by name left out. -/
def builders : Rule τ ν → List (Rule τ ν)
  | terminal _ | call _ | without _ | built _ => []
  | sequence rules | choice rules => buildersAll rules
  | many rule | within _ rule => rule.builders
  | node kind rule => node kind rule :: rule.builders
  | onto kind role operands rule => onto kind role operands rule :: rule.builders

def buildersAll : List (Rule τ ν) → List (Rule τ ν)
  | [] => []
  | rule :: rules => rule.builders ++ buildersAll rules

end

/-- The rule builds a node of the kind. -/
def makes (kind : Kind) : Rule τ ν → Bool
  | node made _ | onto made _ _ _ => made = kind
  | _ => false

/-- The rules inside a rule that build nodes of a kind. -/
def makers (kind : Kind) (rule : Rule τ ν) : List (Rule τ ν) := rule.builders.filter (makes kind)

/-- The rule builds a node of what some rules with a property add one after the other. -/
def holdsAll (property : List (Rule τ ν) → Bool) : Rule τ ν → Bool
  | node _ (sequence rules) => property rules
  | _ => false

mutual

/-- All terminals in a rule, the names of rules it refers to and the kinds of nodes it builds are among
some. -/
def uses (terminals : τ → Bool) (names : ν → Bool) (kinds : Kind → Bool) : Rule τ ν → Bool
  | terminal token => terminals token
  | call name => names name
  | without _ | built _ => true
  | sequence rules | choice rules => usesAll terminals names kinds rules
  | many rule | within _ rule => rule.uses terminals names kinds
  | node kind rule | onto kind _ _ rule => kinds kind && rule.uses terminals names kinds

def usesAll (terminals : τ → Bool) (names : ν → Bool) (kinds : Kind → Bool) :
    List (Rule τ ν) → Bool
  | [] => true
  | rule :: rules => rule.uses terminals names kinds && usesAll terminals names kinds rules

end

/-! ### How many trees -/

/-- What is known of how many trees are added. -/
structure Counts (τ ν : Type) where
  /-- The terminals that read a leaf; the others read nothing. -/
  solid : τ → Bool
  /-- The names of the rules that add just one tree. -/
  single : ν → Bool

mutual

/-- How many trees a rule adds at most, if that is one or none. -/
def most (c : Counts τ ν) : Rule τ ν → Nat
  | terminal token => (c.solid token).toNat
  | node _ _ => 1
  | call name => if c.single name then 1 else 2
  | sequence rules => mostInAll c rules
  | choice rules => mostInAny c rules
  | many rule => if rule.most c = 0 then 0 else 2
  | without _ | built _ | onto _ _ _ _ => 0
  | within _ rule => rule.most c

def mostInAll (c : Counts τ ν) : List (Rule τ ν) → Nat
  | [] => 0
  | rule :: rules => rule.most c + mostInAll c rules

def mostInAny (c : Counts τ ν) : List (Rule τ ν) → Nat
  | [] => 0
  | rule :: rules => max (rule.most c) (mostInAny c rules)

end

mutual

/-- How many trees there are at least behind a rule with `own` many before it, if it wraps none but
those. -/
def least (c : Counts τ ν) (own : Nat) : Rule τ ν → Option Nat
  | terminal token => some (own + (c.solid token).toNat)
  | call name => some (own + (c.single name).toNat)
  | sequence rules => leastInAll c own rules
  | choice rules => leastInAny c own rules
  | many rule => (rule.least c own).bind fun n => if own ≤ n then some own else none
  | without _ | built _ => some own
  | node _ _ => some (own + 1)
  | within _ rule => some (own + (rule.least c 0).getD 0)
  | onto _ _ _ _ => if 0 < own then some own else none

def leastInAll (c : Counts τ ν) (own : Nat) : List (Rule τ ν) → Option Nat
  | [] => some own
  | rule :: rules => (rule.least c own).bind fun n => leastInAll c n rules

/-- A choice with no rule never fits. -/
def leastInAny (c : Counts τ ν) (own : Nat) : List (Rule τ ν) → Option Nat
  | [] => none
  | [rule] => rule.least c own
  | rule :: rules =>
    (rule.least c own).bind fun n => (leastInAny c own rules).map fun m => min n m

end

/-- The rule of a name bears out what is known of it, and it wraps no trees but its own. -/
def bearsOut (c : Counts τ ν) (name : ν) (rule : Rule τ ν) : Bool :=
  (!c.single name || rule.most c ≤ 1) && (rule.least c 0).any ((c.single name).toNat ≤ ·)

/-! ### Roles -/

/-- Of some rules one after the other only the last adds trees in a role, and then one tree at most. -/
def lastInRole (c : Counts τ ν) (role : Role) : List (Rule τ ν) → Bool
  | [] => true
  | [within other rule] => if other = role then rule.most c ≤ 1 else true
  | rule :: rules => (rule.inRole role).isEmpty && lastInRole c role rules

/-- The rule always adds a tree in a role. -/
def putsInRole (c : Counts τ ν) (role : Role) : Rule τ ν → Bool
  | within other rule => other = role && (rule.least c 0).any (0 < ·)
  | _ => false

/-- Of some rules one after the other just one adds a tree in a role, and this tree is kept. -/
def oneInRole (c : Counts τ ν) (role : Role) : List (Rule τ ν) → Bool
  | [] => false
  | rule :: rules =>
    if (rule.inRole role).isEmpty then oneInRole c role rules
    else rule.putsInRole c role && rule.most c ≤ 1 && (inRoleAll role rules).isEmpty &&
      (leastInAll c 0 rules).isSome

/-- The rule wraps the tree built last, and gives the role to this tree only. -/
def ontoInRole (role : Role) : Rule τ ν → Bool
  | onto _ (some other) _ rule => other = role && (rule.inRole role).isEmpty
  | _ => false

mutual

/-- The rule always comes to a wanted one and keeps what that has added. -/
def surely (c : Counts τ ν) (wanted : Rule τ ν → Bool) : Rule τ ν → Bool
  | sequence rules => surelyInAll c wanted rules
  | choice rules => surelyInAny c wanted rules
  | rule => wanted rule

def surelyInAll (c : Counts τ ν) (wanted : Rule τ ν → Bool) : List (Rule τ ν) → Bool
  | [] => false
  | rule :: rules =>
    (rule.surely c wanted && (leastInAll c 0 rules).isSome) || surelyInAll c wanted rules

def surelyInAny (c : Counts τ ν) (wanted : Rule τ ν → Bool) : List (Rule τ ν) → Bool
  | [] => true
  | rule :: rules => rule.surely c wanted && surelyInAny c wanted rules

end

/-! ### Choices -/

variable {c : Counts τ ν} {rule : Rule τ ν} {rules : List (Rule τ ν)}

theorem uses_of_mem {terminals : τ → Bool} {names : ν → Bool} {kinds : Kind → Bool}
    (h : usesAll terminals names kinds rules = true) (hRule : rule ∈ rules) :
    rule.uses terminals names kinds = true := by
  induction rules with
  | nil => cases hRule
  | cons first rest ih =>
      rw [usesAll, Bool.and_eq_true] at h
      rcases List.mem_cons.1 hRule with rfl | hRest
      · exact h.1
      · exact ih h.2 hRest

theorem makers_sequence_cons (kind : Kind) (rule : Rule τ ν) (rules : List (Rule τ ν)) :
    (sequence (rule :: rules)).makers kind = rule.makers kind ++ (sequence rules).makers kind :=
  List.filter_append _ _

/-- What builds nodes inside a rule also does so where a node is built around it. -/
theorem makers_subset_node (kind made : Kind) (rule : Rule τ ν) :
    rule.makers kind ⊆ (node made rule).makers kind :=
  ((List.sublist_cons_self _ _).filter _).subset

/-- A rule for an operand may make nodes of any kind that it could make before. -/
theorem makers_subset_onto (kind made : Kind) (role : Option Role) (operands : List Kind)
    (rule : Rule τ ν) : rule.makers kind ⊆ (onto made role operands rule).makers kind :=
  ((List.sublist_cons_self _ _).filter _).subset

theorem makers_subset_of_mem {kind : Kind} (hRule : rule ∈ rules) :
    rule.makers kind ⊆ (buildersAll rules).filter (makes kind) := by
  induction rules with
  | nil => cases hRule
  | cons first rest ih =>
      rw [buildersAll, List.filter_append]
      intro maker hMaker
      rcases List.mem_cons.1 hRule with rfl | hRest
      · exact List.mem_append_left _ hMaker
      · exact List.mem_append_right _ (ih hRest hMaker)

theorem most_le_of_mem (hRule : rule ∈ rules) : rule.most c ≤ mostInAny c rules := by
  induction rules with
  | nil => cases hRule
  | cons first rest ih =>
      rw [mostInAny]
      rcases List.mem_cons.1 hRule with rfl | hRest
      · exact Nat.le_max_left _ _
      · exact Nat.le_trans (ih hRest) (Nat.le_max_right _ _)

/-- A choice leaves no more than each of its rules. -/
theorem exists_least_of_mem {own n : Nat} (h : leastInAny c own rules = some n)
    (hRule : rule ∈ rules) : ∃ m, rule.least c own = some m ∧ n ≤ m := by
  induction rules generalizing n with
  | nil => cases hRule
  | cons first rest ih =>
      cases rest with
      | nil =>
          cases List.mem_singleton.1 hRule
          exact ⟨n, h, Nat.le_refl n⟩
      | cons second rest =>
          rw [leastInAny, Option.bind_eq_some_iff] at h
          · obtain ⟨m, hFirst, hRest⟩ := h
            obtain ⟨k, hLater, rfl⟩ := Option.map_eq_some_iff.1 hRest
            rcases List.mem_cons.1 hRule with rfl | hMem
            · exact ⟨m, hFirst, Nat.min_le_left _ _⟩
            · obtain ⟨m', hRule', hLe⟩ := ih hLater hMem
              exact ⟨m', hRule', Nat.le_trans (Nat.min_le_right _ _) hLe⟩
          · simp

end Rule

end SourceSurvey.Syntax
