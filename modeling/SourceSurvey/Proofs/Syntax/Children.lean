import SourceSurvey.Proofs.Syntax.Leaf
import SourceSurvey.Proofs.Syntax.Rule

/-!
What rules make of the children of nodes. What can be seen of the rules of a grammar is so wherever
they are read, and thus for all nodes of a kind.
-/

namespace SourceSurvey.Syntax

namespace Shape

open Rule

variable {τ ν : Type} {s : Shape τ ν} {rule : Rule τ ν} {rules : List (Rule τ ν)}
  {built built' : List Tree} {role : Role} {kind : Kind}

/-! ### Parts of a reading -/

theorem adds_sequence_nil_iff : Adds s (.sequence []) built built' ↔ built' = built := by
  constructor
  · rintro ⟨⟩
    rfl
  · rintro rfl
    exact .sequenceNil

/-- A sequence adds what its first rule does and, to that, what the others do. -/
theorem adds_sequence_cons_iff : Adds s (.sequence (rule :: rules)) built built' ↔
    ∃ between, Adds s rule built between ∧ Adds s (.sequence rules) between built' := by
  constructor
  · intro h
    cases h with
    | sequenceCons h hRest => exact ⟨_, h, hRest⟩
  · rintro ⟨_, h, hRest⟩
    exact .sequenceCons h hRest

/-- A node takes what its rule adds for its children, and is one tree itself. -/
theorem adds_node_iff : Adds s (.node kind rule) built built' ↔
    ∃ inner, Adds s rule [] inner ∧ built' = .node kind none inner.reverse :: built := by
  constructor
  · intro h
    cases h with
    | node h => exact ⟨_, h, rfl⟩
  · rintro ⟨_, h, rfl⟩
    exact .node h

/-- What a rule adds within a role is given the role where it has none yet. -/
theorem adds_within_iff : Adds s (.within role rule) built built' ↔
    ∃ inner, Adds s rule [] inner ∧ built' = inner.map (·.withRole role) ++ built := by
  constructor
  · intro h
    cases h with
    | within h => exact ⟨_, h, rfl⟩
  · rintro ⟨_, h, rfl⟩
    exact .within h

/-- Trees before those that a rule can see make no difference. -/
theorem Adds.append (h : Adds s rule built built') (base : List Tree) :
    Adds s rule (built ++ base) (built' ++ base) := by
  induction h with
  | nothing hSolid => exact .nothing hSolid
  | leaf hSolid hLeaf => exact .leaf hSolid hLeaf
  | call _ ih => exact .call ih
  | sequenceNil => exact .sequenceNil
  | sequenceCons _ _ ih ihRest => exact .sequenceCons ih ihRest
  | choice hRule _ ih => exact .choice hRule ih
  | manyNil => exact .manyNil
  | manyCons _ _ ih ihRest => exact .manyCons ih ihRest
  | without => exact .without
  | built => exact .built
  | node h => exact .node h
  | within h => exact List.append_assoc _ _ base ▸ .within h
  | onto h => exact .onto h

/-! ### Trees in a role -/

/-- Terminals stand for leaves of some kinds, those that are solid. The rules of names bear out what is
known of how many trees they add. -/
structure Counted (s : Shape τ ν) (isLeaf : Kind → Prop) (c : Counts τ ν) : Prop where
  solid : s.solid = c.solid
  leaf : ∀ {terminal kind text}, s.leaf terminal kind text → isLeaf kind
  rule : ∀ name, (s.rule name).bearsOut c name = true

variable {isLeaf : Kind → Prop} {c : Counts τ ν}

namespace Counted

theorem most_le (hCounts : s.Counted isLeaf c) {name : ν} (hName : c.single name = true) :
    (s.rule name).most c ≤ 1 := by
  have hRule := hCounts.rule name
  simp only [bearsOut, hName, Bool.and_eq_true, Bool.not_true, Bool.false_or,
    decide_eq_true_eq] at hRule
  exact hRule.1

theorem exists_least (hCounts : s.Counted isLeaf c) (name : ν) :
    ∃ n, (s.rule name).least c 0 = some n ∧ (c.single name).toNat ≤ n := by
  have hRule := hCounts.rule name
  rw [bearsOut, Bool.and_eq_true, Option.any_eq_true] at hRule
  obtain ⟨_, n, hLeast, hLe⟩ := hRule
  exact ⟨n, hLeast, by simpa using hLe⟩

end Counted

/-- A rule that builds nothing in a role adds nothing in it. -/
theorem Adds.role_ne (hApart : ∀ name, (s.rule name).inRole role = []) (h : Adds s rule built built')
    (hNone : rule.inRole role = []) (hBuilt : ∀ t ∈ built, t.role ≠ some role) :
    ∀ t ∈ built', t.role ≠ some role := by
  intro t hT hRole
  rcases h.of_role hApart t hT hRole with hOld | ⟨inner, hInner, _⟩
  · exact hBuilt t hOld hRole
  · rw [hNone] at hInner
    cases hInner

/-! ### How many trees -/

/-- A rule that adds one tree at most, by its count, does so in every derivation. -/
theorem Adds.length_le (hCounts : s.Counted isLeaf c)
    (h : Adds s rule built built') (hMost : rule.most c ≤ 1) :
    built'.length ≤ built.length + rule.most c := by
  induction h with
  | leaf hSolid => simp [most, ← hCounts.solid, hSolid]
  | call _ ih =>
      rename_i name _ _ _
      rw [most] at hMost ⊢
      cases hName : c.single name with
      | false => simp [hName] at hMost
      | true =>
          have hLe := hCounts.most_le hName
          have hInner := ih hLe
          rw [if_pos rfl]
          omega
  | nothing | sequenceNil | manyNil | without | built => exact Nat.le_add_right _ _
  | sequenceCons _ _ ih ihRest =>
      rw [most, mostInAll] at hMost ⊢
      have hFirst := ih (by omega)
      have hRest := ihRest (by rw [most]; omega)
      rw [most] at hRest
      omega
  | choice hMem _ ih =>
      rw [most] at hMost ⊢
      have hLe := most_le_of_mem (c := c) hMem
      have hInner := ih (by omega)
      omega
  | manyCons _ _ ih ihRest =>
      rename_i rule _ _ _ _ _
      have hNone : rule.most c = 0 := by
        rw [most] at hMost
        split at hMost
        · assumption
        · omega
      have hFirst := ih (by omega)
      have hRest := ihRest hMost
      omega
  | node => simp [most]
  | within _ ih =>
      have hInner := ih hMost
      rw [List.length_append, List.length_map, most]
      simp only [List.length_nil, Nat.zero_add] at hInner
      omega
  | onto => simp [most]

/-- A rule that wraps no trees but its own leaves the others as they are. -/
theorem Adds.own (hCounts : s.Counted isLeaf c)
    (h : Adds s rule built built') : ∀ (own base : List Tree) {least n : Nat},
      built = own ++ base → least ≤ own.length → rule.least c least = some n →
        ∃ own', built' = own' ++ base ∧ n ≤ own'.length ∧ Adds s rule own own' := by
  induction h with
  | nothing hSolid =>
      rintro own base least n rfl hOwn hLeast
      rw [Rule.least, ← hCounts.solid, hSolid] at hLeast
      cases hLeast
      exact ⟨own, rfl, hOwn, .nothing hSolid⟩
  | leaf hSolid hLeaf =>
      rintro own base least n rfl hOwn hLeast
      rw [Rule.least, ← hCounts.solid, hSolid] at hLeast
      cases hLeast
      exact ⟨_ :: own, rfl, Nat.succ_le_succ hOwn, .leaf hSolid hLeaf⟩
  | call _ ih =>
      rename_i name _ _ _
      rintro own base least n rfl hOwn hLeast
      obtain ⟨m, hName, hLe⟩ := hCounts.exists_least name
      obtain ⟨new, hNew, hLength, hInner⟩ :=
        ih [] (own ++ base) rfl (Nat.le_refl 0) hName
      refine ⟨new ++ own, by rw [hNew, List.append_assoc], ?_, .call (hInner.append own)⟩
      cases hLeast
      rw [List.length_append]
      omega
  | sequenceNil =>
      rintro own base least n rfl hOwn hLeast
      cases hLeast
      exact ⟨own, rfl, hOwn, .sequenceNil⟩
  | sequenceCons _ _ ih ihRest =>
      intro own base least n hBuilt hOwn hLeast
      obtain ⟨m, hFirst, hRest⟩ := Option.bind_eq_some_iff.1 hLeast
      obtain ⟨between, hBetween, hLength, hRule⟩ := ih own base hBuilt hOwn hFirst
      obtain ⟨own', hOwn', hLength', hRules⟩ := ihRest between base hBetween hLength hRest
      exact ⟨own', hOwn', hLength', .sequenceCons hRule hRules⟩
  | choice hMem _ ih =>
      intro own base least n hBuilt hOwn hLeast
      obtain ⟨m, hRule, hLe⟩ := exists_least_of_mem hLeast hMem
      obtain ⟨own', hOwn', hLength, hInner⟩ := ih own base hBuilt hOwn hRule
      exact ⟨own', hOwn', Nat.le_trans hLe hLength, .choice hMem hInner⟩
  | manyNil =>
      rintro own base least n rfl hOwn hLeast
      obtain ⟨m, _, hSame⟩ := Option.bind_eq_some_iff.1 hLeast
      obtain ⟨_, hN⟩ := Option.ite_none_right_eq_some.1 hSame
      cases hN
      exact ⟨own, rfl, hOwn, .manyNil⟩
  | manyCons _ _ ih ihRest =>
      intro own base least n hBuilt hOwn hLeast
      obtain ⟨m, hFirst, hSame⟩ := Option.bind_eq_some_iff.1 hLeast
      obtain ⟨hLe, _⟩ := Option.ite_none_right_eq_some.1 hSame
      obtain ⟨between, hBetween, hLength, hRule⟩ := ih own base hBuilt hOwn hFirst
      obtain ⟨own', hOwn', hLength', hRules⟩ :=
        ihRest between base hBetween (Nat.le_trans hLe hLength) hLeast
      exact ⟨own', hOwn', hLength', .manyCons hRule hRules⟩
  | without =>
      rintro own base least n rfl hOwn hLeast
      cases hLeast
      exact ⟨own, rfl, hOwn, .without⟩
  | built =>
      rintro own base least n rfl hOwn hLeast
      cases hLeast
      exact ⟨own, rfl, hOwn, .built⟩
  | node h =>
      rintro own base least n rfl hOwn hLeast
      cases hLeast
      exact ⟨.node _ none _ :: own, rfl, Nat.succ_le_succ hOwn, .node h⟩
  | within h ih =>
      rename_i role rule _ inner
      rintro own base least n rfl hOwn hLeast
      refine ⟨inner.map (·.withRole role) ++ own, (List.append_assoc _ _ _).symm, ?_, .within h⟩
      cases hLeast
      rw [List.length_append, List.length_map]
      cases hInner : rule.least c 0 with
      | none =>
          simp only [Option.getD_none]
          omega
      | some m =>
          obtain ⟨_, hSame, hLength, _⟩ := ih [] [] rfl (Nat.le_refl 0) hInner
          rw [List.append_nil] at hSame
          simp only [Option.getD_some, hSame]
          omega
  | onto h =>
      intro own base least n hBuilt hOwn hLeast
      obtain ⟨hPos, hN⟩ := Option.ite_none_right_eq_some.1 hLeast
      cases hN
      cases own with
      | nil => simp only [List.length_nil] at hOwn; omega
      | cons operand before =>
          obtain ⟨rfl, rfl⟩ := List.cons.inj hBuilt
          exact ⟨.node _ none _ :: before, rfl, hOwn, .onto h⟩

/-- If a rule wraps no trees but its own, it leaves those before it. -/
theorem Adds.exists_append (hCounts : s.Counted isLeaf c) (h : Adds s rule built built')
    (hLeast : (rule.least c 0).isSome = true) :
    ∃ new, built' = new ++ built ∧ Adds s rule [] new := by
  obtain ⟨n, hN⟩ := Option.isSome_iff_exists.1 hLeast
  obtain ⟨new, hNew, _, hAdds⟩ := h.own hCounts [] built rfl (Nat.zero_le 0) hN
  exact ⟨new, hNew, hAdds⟩

/-- A rule that always adds a tree in a role adds some trees, all in the role. -/
theorem Adds.of_putsInRole (hCounts : s.Counted isLeaf c) (h : Adds s rule built built')
    (hPuts : rule.putsInRole c role = true) : ∃ new, built' = new ++ built ∧ new ≠ [] ∧
      ∀ t ∈ new, t.role = some role := by
  rw [putsInRole.eq_def] at hPuts
  split at hPuts
  · rename_i other inner
    rw [Bool.and_eq_true, decide_eq_true_eq, Option.any_eq_true] at hPuts
    obtain ⟨rfl, n, hLeast, hPos⟩ := hPuts
    obtain ⟨new, hInner, rfl⟩ := adds_within_iff.1 h
    obtain ⟨new', hSame, hLength, _⟩ :=
      hInner.own hCounts [] [] rfl (Nat.zero_le 0) hLeast
    rw [List.append_nil] at hSame
    subst hSame
    refine ⟨_, rfl, ?_, by simp⟩
    have hN : 0 < n := by simpa using hPos
    simpa using List.ne_nil_of_length_pos (Nat.lt_of_lt_of_le hN hLength)
  · cases hPuts

/-- Only the last of some rules adds trees in the role. -/
theorem Adds.last_in_role (hCounts : s.Counted isLeaf c)
    (hApart : ∀ name, (s.rule name).inRole role = [])
    (h : Adds s (.sequence rules) built built') (hLast : lastInRole c role rules = true)
    (hBuilt : ∀ t ∈ built, t.role ≠ some role) : ∃ last front, built' = last ++ front ∧
      last.length ≤ 1 ∧ (∀ t ∈ front, t.role ≠ some role) ∧ ∀ t ∈ last, t.role = some role := by
  induction rules generalizing built with
  | nil =>
      cases adds_sequence_nil_iff.1 h
      exact ⟨[], _, rfl, Nat.zero_le 1, hBuilt, by simp⟩
  | cons rule rules ih =>
      obtain ⟨between, hRule, hRest⟩ := adds_sequence_cons_iff.1 h
      rw [lastInRole.eq_def] at hLast
      split at hLast
      · contradiction
      · rename_i other inner hRules
        obtain ⟨rfl, rfl⟩ := List.cons.inj hRules
        cases adds_sequence_nil_iff.1 hRest
        split at hLast
        · rename_i hRole
          obtain ⟨trees, hInner, rfl⟩ := adds_within_iff.1 hRule
          have hMost : inner.most c ≤ 1 := by simpa using hLast
          have hLength := hInner.length_le hCounts hMost
          rw [List.length_nil, Nat.zero_add] at hLength
          refine ⟨trees.map (·.withRole other), _, rfl, ?_, hBuilt, ?_⟩
          · rw [List.length_map]
            omega
          · simp [hRole]
        · rename_i hOther
          have hNone : (Rule.within other inner).inRole role = [] := by simp [inRole, hOther]
          exact ⟨[], _, rfl, Nat.zero_le 1, hRule.role_ne hApart hNone hBuilt, by simp⟩
      · rename_i hRules
        obtain ⟨rfl, rfl⟩ := List.cons.inj hRules
        rw [Bool.and_eq_true, List.isEmpty_iff] at hLast
        exact ih hRest hLast.2 (hRule.role_ne hApart hLast.1 hBuilt)

/-- Just one of some rules adds a tree in the role. -/
theorem Adds.one_in_role (hCounts : s.Counted isLeaf c)
    (hApart : ∀ name, (s.rule name).inRole role = [])
    (h : Adds s (.sequence rules) built built') (hOne : oneInRole c role rules = true)
    (hBuilt : ∀ t ∈ built, t.role ≠ some role) :
    ∃ t, built'.filter (·.role = some role) = [t] := by
  induction rules generalizing built with
  | nil => cases hOne
  | cons rule rules ih =>
      obtain ⟨between, hRule, hRest⟩ := adds_sequence_cons_iff.1 h
      rw [oneInRole] at hOne
      split at hOne
      · rename_i hNone
        exact ih hRest hOne (hRule.role_ne hApart (List.isEmpty_iff.1 hNone) hBuilt)
      · simp only [Bool.and_eq_true, decide_eq_true_eq, List.isEmpty_iff] at hOne
        obtain ⟨⟨⟨hPuts, hMost⟩, hNone⟩, hKeeps⟩ := hOne
        obtain ⟨new, rfl, hNew, hRole⟩ := hRule.of_putsInRole hCounts hPuts
        have hLength := hRule.length_le hCounts hMost
        obtain ⟨later, rfl, hLater⟩ := hRest.exists_append hCounts hKeeps
        have hLaterRole := hLater.role_ne hApart hNone (by simp)
        rw [List.length_append] at hLength
        obtain ⟨t, rfl⟩ : ∃ t, new = [t] :=
          List.length_eq_one_iff.1 (by have := List.length_pos_iff.2 hNew; omega)
        have hEarlier : built.filter (·.role = some role) = [] := by simpa using hBuilt
        have hLater : later.filter (·.role = some role) = [] := by simpa using hLaterRole
        refine ⟨t, ?_⟩
        simp [hEarlier, hLater, hRole t List.mem_cons_self]

/-! ### Kinds of nodes -/

/-- What a rule adds is made of leaves that its terminals read and of its kinds of nodes, if this is so
for the rules that it may refer to. -/
theorem Adds.made {leafFits : Kind → String → Prop} {terminals : τ → Bool} {names : ν → Bool}
    {kinds : Kind → Bool}
    (hLeaf : ∀ {terminal kind text}, terminals terminal = true → s.leaf terminal kind text →
      leafFits kind text)
    (hNames : ∀ name, names name = true → (s.rule name).uses terminals names kinds = true)
    (h : Adds s rule built built') (hUses : rule.uses terminals names kinds = true)
    (hBuilt : ∀ t ∈ built, t.Made leafFits (kinds · = true)) :
    ∀ t ∈ built', t.Made leafFits (kinds · = true) := by
  induction h with
  | leaf _ hFits => exact List.forall_mem_cons.2 ⟨hLeaf hUses hFits, hBuilt⟩
  | call _ ih => exact ih (hNames _ hUses) hBuilt
  | nothing | sequenceNil | manyNil | without | built => exact hBuilt
  | sequenceCons _ _ ih ihRest =>
      rw [uses, usesAll, Bool.and_eq_true] at hUses
      exact ihRest hUses.2 (ih hUses.1 hBuilt)
  | choice hMem _ ih => exact ih (uses_of_mem hUses hMem) hBuilt
  | manyCons _ _ ih ihRest => exact ihRest hUses (ih hUses hBuilt)
  | node _ ih =>
      rw [uses, Bool.and_eq_true] at hUses
      refine List.forall_mem_cons.2 ⟨⟨hUses.1, Tree.madeAll_iff.2 fun t hT => ?_⟩, hBuilt⟩
      exact ih hUses.2 (by simp) t (List.mem_reverse.1 hT)
  | within _ ih =>
      intro t hT
      rcases List.mem_append.1 hT with hNew | hOld
      · obtain ⟨t', hT', rfl⟩ := List.mem_map.1 hNew
        exact Tree.made_withRole.2 (ih hUses (by simp) t' hT')
      · exact hBuilt t hOld
  | onto _ ih =>
      rename_i role _ _ _ _ _ _
      rw [uses, Bool.and_eq_true] at hUses
      obtain ⟨hOperand, hBefore⟩ := List.forall_mem_cons.1 hBuilt
      refine List.forall_mem_cons.2 ⟨⟨hUses.1, ?_, Tree.madeAll_iff.2 fun t hT => ?_⟩, hBefore⟩
      · cases role with
        | none => exact hOperand
        | some _ => exact Tree.made_withRole.2 hOperand
      · exact ih hUses.2 (by simp) t (List.mem_reverse.1 hT)

end Shape

/-! ### Children of all nodes of a kind -/

namespace Tree

variable {kind : Kind} {fits : List Tree → Prop}

/-- Of the children only the last can be in a role. -/
def LastInRole (role : Role) (children : List Tree) : Prop :=
  ∃ front last, children = front ++ last ∧ last.length ≤ 1 ∧
    (∀ t ∈ front, t.role ≠ some role) ∧ ∀ t ∈ last, t.role = some role

/-- Just one of the children is in a role. -/
def OneInRole (role : Role) (children : List Tree) : Prop :=
  ∃ t, children.filter (·.role = some role) = [t]

/-- No two of the children are in a role. -/
def AtMostOneInRole (role : Role) (children : List Tree) : Prop :=
  (children.filter (·.role = some role)).length ≤ 1

theorem lastInRole_nil (role : Role) : LastInRole role [] := ⟨[], [], by simp⟩

mutual

/-- All leaves and nodes of the kind in the tree have fitting children, leaves none. -/
def ChildrenFit (kind : Kind) (fits : List Tree → Prop) : Tree → Prop
  | leaf made _ _ _ => made = kind → fits []
  | node made _ children => (made = kind → fits children) ∧ ChildrenFitAll kind fits children

def ChildrenFitAll (kind : Kind) (fits : List Tree → Prop) : List Tree → Prop
  | [] => True
  | t :: ts => t.ChildrenFit kind fits ∧ ChildrenFitAll kind fits ts

end

theorem childrenFitAll_iff {ts : List Tree} :
    ChildrenFitAll kind fits ts ↔ ∀ t ∈ ts, t.ChildrenFit kind fits := by
  induction ts with
  | nil => simp [ChildrenFitAll]
  | cons t ts ih => rw [ChildrenFitAll, ih, List.forall_mem_cons]

@[simp]
theorem childrenFit_withRole {role : Role} {t : Tree} :
    (t.withRole role).ChildrenFit kind fits ↔ t.ChildrenFit kind fits := by
  cases t <;> simp only [withRole, ChildrenFit]

theorem ChildrenFit.child {t : Tree} (h : t.ChildrenFit kind fits) :
    ∀ child ∈ t.children, child.ChildrenFit kind fits := by
  cases t with
  | leaf => simp [children]
  | node => exact childrenFitAll_iff.1 h.2

/-- Whatever is said of all nodes of a kind holds anywhere in the tree. -/
theorem ChildrenFit.of_mem_places {t : Tree} {above : List Tree} {p : Place}
    (h : t.ChildrenFit kind fits) (hP : p ∈ t.places above) : p.tree.ChildrenFit kind fits :=
  inherited_of_mem_places (fun _ => ChildrenFit.child) h hP

theorem ChildrenFit.fits_children {t : Tree} (h : t.ChildrenFit kind fits) (hKind : t.kind = kind) :
    fits t.children := by
  cases t with
  | leaf => exact h hKind
  | node => exact h.1 hKind

end Tree

namespace Shape

open Rule

variable {τ ν : Type} {s : Shape τ ν} {rule : Rule τ ν} {built built' : List Tree}
  {kind : Kind} {fits : List Tree → Prop} {isLeaf : Kind → Prop} {c : Counts τ ν}

/-- A node that the rule builds has fitting children. -/
def Fitting (s : Shape τ ν) (fits : List Tree → Prop) (rule : Rule τ ν) : Prop :=
  ∀ ⦃before t after⦄, Adds s rule before (t :: after) → fits t.children

/-- A node of what some rules add one after the other. -/
theorem fitting_of_holdsAll {property : List (Rule τ ν) → Bool}
    (hProperty : ∀ {rules built}, property rules = true → Adds s (.sequence rules) [] built →
      fits built.reverse)
    (h : rule.holdsAll property = true) : s.Fitting fits rule := by
  intro before t after hAdds
  rw [holdsAll.eq_def] at h
  split at h
  · obtain ⟨inner, hInner, hNode⟩ := adds_node_iff.1 hAdds
    obtain ⟨rfl, rfl⟩ := List.cons.inj hNode
    exact hProperty h hInner
  · cases h

/-- When the rules say so, the last child of a node is the one in the role. -/
theorem fitting_lastInRole {role : Role} (hCounts : s.Counted isLeaf c)
    (hApart : ∀ name, (s.rule name).inRole role = [])
    (h : rule.holdsAll (lastInRole c role) = true) : s.Fitting (Tree.LastInRole role) rule := by
  refine fitting_of_holdsAll (fun hLast hAdds => ?_) h
  obtain ⟨last, front, rfl, hLength, hFront, hRole⟩ :=
    hAdds.last_in_role hCounts hApart hLast (by simp)
  refine ⟨front.reverse, last.reverse, by simp, by simpa using hLength, ?_, ?_⟩
  · simpa using hFront
  · simpa using hRole

/-- When the rules say so, a node has just one child in the role. -/
theorem fitting_oneInRole {role : Role} (hCounts : s.Counted isLeaf c)
    (hApart : ∀ name, (s.rule name).inRole role = [])
    (h : rule.holdsAll (oneInRole c role) = true) : s.Fitting (Tree.OneInRole role) rule := by
  refine fitting_of_holdsAll (fun hOne hAdds => ?_) h
  obtain ⟨t, hT⟩ := hAdds.one_in_role hCounts hApart hOne (by simp)
  exact ⟨t, by rw [List.filter_reverse, hT, List.reverse_singleton]⟩

/-- Of a node around the tree built last, only this tree is in the role that it takes. -/
theorem fitting_ontoInRole {role : Role}
    (hApart : ∀ name, (s.rule name).inRole role = []) (h : rule.ontoInRole role = true) :
    s.Fitting (Tree.AtMostOneInRole role) rule := by
  intro before t after hAdds
  rw [ontoInRole.eq_def] at h
  split at h
  · rename_i other _ _
    rw [Bool.and_eq_true, decide_eq_true_eq, List.isEmpty_iff] at h
    obtain ⟨rfl, hNone⟩ := h
    cases hAdds with
    | onto hInner =>
        rename_i inner
        have hOther := hInner.role_ne hApart hNone (by simp)
        have hNone : inner.reverse.filter (·.role = some other) = [] := by simpa using hOther
        rw [Tree.AtMostOneInRole, Tree.children, List.filter_cons_of_pos (by simp), hNone]
        exact Nat.le_refl 1
  · cases h

/-- A node of what uses only some means has children made of these. -/
theorem fitting_uses {leafFits : Kind → String → Prop} {terminals : τ → Bool} {names : ν → Bool}
    {kinds : Kind → Bool}
    (hLeaf : ∀ {terminal kind text}, terminals terminal = true → s.leaf terminal kind text →
      leafFits kind text)
    (hNames : ∀ name, names name = true → (s.rule name).uses terminals names kinds = true)
    (h : rule.holdsAll (usesAll terminals names kinds) = true) :
    s.Fitting (Tree.MadeAll leafFits (kinds · = true)) rule := by
  refine fitting_of_holdsAll (fun hUses hAdds => Tree.madeAll_iff.2 fun t hT => ?_) h
  exact hAdds.made hLeaf hNames hUses (by simp) t (List.mem_reverse.1 hT)

/-- By induction over the derivation: a node of the kind is made by one of its makers, and these see
to its children. -/
theorem Adds.childrenFit (hCounts : s.Counted isLeaf c) (hLeaf : isLeaf kind → fits [])
    (hRules : ∀ name, ∀ maker ∈ (s.rule name).makers kind, s.Fitting fits maker)
    (h : Adds s rule built built')
    (hRule : ∀ maker ∈ rule.makers kind, s.Fitting fits maker)
    (hBuilt : ∀ t ∈ built, t.ChildrenFit kind fits) : ∀ t ∈ built', t.ChildrenFit kind fits := by
  induction h with
  | leaf _ hMade =>
      exact List.forall_mem_cons.2 ⟨fun hSame => hLeaf (hSame ▸ hCounts.leaf hMade), hBuilt⟩
  | call _ ih => exact ih (hRules _) hBuilt
  | nothing | sequenceNil | manyNil | without | built => exact hBuilt
  | sequenceCons _ _ ih ihRest =>
      rw [makers_sequence_cons] at hRule
      obtain ⟨hFirst, hRest⟩ := List.forall_mem_append.1 hRule
      exact ihRest hRest (ih hFirst hBuilt)
  | choice hMem _ ih =>
      exact ih (fun maker hMaker => hRule maker (makers_subset_of_mem hMem hMaker)) hBuilt
  | manyCons _ _ ih ihRest => exact ihRest hRule (ih hRule hBuilt)
  | node h ih =>
      rename_i made inner _ _
      have hInner : ∀ maker ∈ inner.makers kind, s.Fitting fits maker := fun maker hMaker =>
        hRule maker (makers_subset_node _ _ _ hMaker)
      refine List.forall_mem_cons.2 ⟨⟨?_, Tree.childrenFitAll_iff.2 fun t hT => ?_⟩, hBuilt⟩
      · rintro rfl
        exact hRule _ (List.mem_filter.2 ⟨List.mem_cons_self, by simp [makes]⟩)
          (.node h : Adds s _ [] _)
      · exact ih hInner (by simp) t (List.mem_reverse.1 hT)
  | within _ ih =>
      intro t hT
      rcases List.mem_append.1 hT with hNew | hOld
      · obtain ⟨t', hT', rfl⟩ := List.mem_map.1 hNew
        exact Tree.childrenFit_withRole.2 (ih hRule (by simp) t' hT')
      · exact hBuilt t hOld
  | onto h ih =>
      rename_i made role operands inner operand before _
      obtain ⟨hOperand, hBefore⟩ := List.forall_mem_cons.1 hBuilt
      have hInner : ∀ maker ∈ inner.makers kind, s.Fitting fits maker := fun maker hMaker =>
        hRule maker (makers_subset_onto _ _ _ _ _ hMaker)
      refine List.forall_mem_cons.2 ⟨⟨?_, ?_, Tree.childrenFitAll_iff.2 fun t hT => ?_⟩, hBefore⟩
      · rintro rfl
        exact hRule _ (List.mem_filter.2 ⟨List.mem_cons_self, by simp [makes]⟩)
          (.onto h : Adds s _ (_ :: before) _)
      · cases role with
        | none => exact hOperand
        | some _ => exact Tree.childrenFit_withRole.2 hOperand
      · exact ih hInner (by simp) t (List.mem_reverse.1 hT)

/-- In a tree that the rules derive, all nodes of the kind have fitting children. -/
theorem Derives.childrenFit {first : Rule τ ν} {t : Tree} (h : s.Derives first rule t)
    (hCounts : s.Counted isLeaf c) (hLeaf : isLeaf kind → fits [])
    (hRules : ∀ name, ∀ maker ∈ (s.rule name).makers kind, s.Fitting fits maker)
    (hProgram : .program ≠ kind) (hFirst : first.makers kind = []) (hRule : rule.makers kind = []) :
    t.ChildrenFit kind fits := by
  obtain ⟨built, hAdds, rfl⟩ := h
  have hNone : (Rule.sequence [first, .many rule]).makers kind = [] := by
    rw [makers_sequence_cons, makers_sequence_cons, hFirst, List.nil_append]
    exact List.append_eq_nil_iff.2 ⟨hRule, rfl⟩
  have hBuilt := hAdds.childrenFit hCounts hLeaf hRules (by simp [hNone]) (by simp)
  exact ⟨fun hSame => absurd hSame hProgram,
    Tree.childrenFitAll_iff.2 fun t hT => hBuilt t (List.mem_reverse.1 hT)⟩

/-- A tree that is derived with only some means is made of these. -/
theorem Derives.made {leafFits : Kind → String → Prop} {terminals : τ → Bool} {names : ν → Bool}
    {kinds : Kind → Bool} {first : Rule τ ν} {t : Tree} (h : s.Derives first rule t)
    (hLeaf : ∀ {terminal kind text}, terminals terminal = true → s.leaf terminal kind text →
      leafFits kind text)
    (hNames : ∀ name, names name = true → (s.rule name).uses terminals names kinds = true)
    (hProgram : kinds .program = true) (hFirst : first.uses terminals names kinds = true)
    (hRule : rule.uses terminals names kinds = true) : t.Made leafFits (kinds · = true) := by
  obtain ⟨built, hAdds, rfl⟩ := h
  have hUses : (Rule.sequence [first, .many rule]).uses terminals names kinds = true := by
    simp [uses, usesAll, hFirst, hRule]
  refine ⟨hProgram, Tree.madeAll_iff.2 fun t hT => ?_⟩
  exact hAdds.made hLeaf hNames hUses (by simp) t (List.mem_reverse.1 hT)

end Shape

end SourceSurvey.Syntax
