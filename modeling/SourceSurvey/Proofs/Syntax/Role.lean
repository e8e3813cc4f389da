import SourceSurvey.Proofs.Syntax.Derivation

/-!
Names of nodes. Where the rules of a grammar give certain nodes a child in some role, its kind is
settled by the kind of the node throughout the trees that are read.
-/

namespace SourceSurvey.Syntax

namespace Tree

variable {role : Role} {pairs : List (Kind × Kind)}

/-- What a child in some role may be in a node of a kind, if there is a rule for such nodes: the node's
kind and the child's are one of the pairs. -/
def Paired (pairs : List (Kind × Kind)) (kind child : Kind) : Prop :=
  kind ∈ pairs.map (·.1) → (kind, child) ∈ pairs

mutual

/-- The children in a role are what they may be, in all nodes of the tree. -/
def RoleFits (role : Role) (pairs : List (Kind × Kind)) : Tree → Prop
  | leaf _ _ _ _ => True
  | node kind _ children =>
    (∀ t ∈ children, t.role = some role → Paired pairs kind t.kind) ∧ RoleFitsAll role pairs children

def RoleFitsAll (role : Role) (pairs : List (Kind × Kind)) : List Tree → Prop
  | [] => True
  | t :: ts => t.RoleFits role pairs ∧ RoleFitsAll role pairs ts

end

theorem roleFitsAll_iff {ts : List Tree} :
    RoleFitsAll role pairs ts ↔ ∀ t ∈ ts, t.RoleFits role pairs := by
  induction ts with
  | nil => simp [RoleFitsAll]
  | cons t ts ih => rw [RoleFitsAll, ih, List.forall_mem_cons]

@[simp]
theorem roleFits_withRole {other : Role} {t : Tree} :
    (t.withRole other).RoleFits role pairs ↔ t.RoleFits role pairs := by
  cases t <;> simp only [withRole, RoleFits]

@[simp]
theorem kind_withRole (role : Role) (t : Tree) : (t.withRole role).kind = t.kind := by
  cases t <;> rfl

@[simp]
theorem role_withRole (role : Role) (t : Tree) : (t.withRole role).role = some role := by
  cases t <;> rfl

/-- The children of a node in the role. -/
theorem RoleFits.paired {t child : Tree} (h : t.RoleFits role pairs) (hChild : child ∈ t.children)
    (hRole : child.role = some role) : Paired pairs t.kind child.kind := by
  cases t with
  | leaf => cases hChild
  | node kind _ children => exact h.1 child hChild hRole

theorem RoleFits.child {t : Tree} (h : t.RoleFits role pairs) :
    ∀ child ∈ t.children, child.RoleFits role pairs := by
  cases t with
  | leaf => simp [children]
  | node => exact roleFitsAll_iff.1 h.2

/-- Each part of a tree has children in the role as the whole has. -/
theorem RoleFits.of_mem_places {t : Tree} {above : List Tree} {p : Place}
    (h : t.RoleFits role pairs) (hP : p ∈ t.places above) : p.tree.RoleFits role pairs :=
  inherited_of_mem_places (fun _ => RoleFits.child) h hP

/-- A tree is a part of itself. -/
theorem mem_places_self (t : Tree) (above : List Tree) : ⟨t, above⟩ ∈ t.places above := by
  cases t with
  | leaf => exact List.mem_singleton.2 rfl
  | node => exact List.mem_cons_self

theorem mem_placesAll {t : Tree} {ts above : List Tree} (h : t ∈ ts) :
    ⟨t, above⟩ ∈ placesAll above ts := by
  induction ts with
  | nil => cases h
  | cons first rest ih =>
      rw [placesAll, List.mem_append]
      rcases List.mem_cons.1 h with rfl | hRest
      · exact .inl (mem_places_self t above)
      · exact .inr (ih hRest)

mutual

/-- The children of a part are parts. -/
theorem child_mem_places {child : Tree} {p : Place} (hChild : child ∈ p.tree.children) :
    ∀ {t : Tree} {above : List Tree}, p ∈ t.places above → ⟨child, p.tree :: p.above⟩ ∈ t.places above
  | leaf _ _ _ _, _, hP => by
      cases List.mem_singleton.1 hP
      cases hChild
  | node _ _ _, _, hP => by
      rcases List.mem_cons.1 hP with rfl | hBelow
      · exact List.mem_cons_of_mem _ (mem_placesAll hChild)
      · exact List.mem_cons_of_mem _ (child_mem_placesAll hChild hBelow)

/-- The children of a part are parts. -/
theorem child_mem_placesAll {child : Tree} {p : Place} (hChild : child ∈ p.tree.children) :
    ∀ {ts : List Tree} {above : List Tree}, p ∈ placesAll above ts →
      ⟨child, p.tree :: p.above⟩ ∈ placesAll above ts
  | [], _, hP => by cases hP
  | _ :: _, _, hP => by
      rw [placesAll]
      rcases List.mem_append.1 hP with hFirst | hRest
      · exact List.mem_append_left _ (child_mem_places hChild hFirst)
      · exact List.mem_append_right _ (child_mem_placesAll hChild hRest)

end

/-- The first child in a role is the first of all children in the role. -/
theorem child?_eq_head? (t : Tree) :
    t.child? role = (t.children.filter (·.role = some role)).head? := by
  rw [child?, List.head?_filter]

/-- The first child in a role is a child and in the role. -/
theorem of_child?_eq_some {t child : Tree} (h : t.child? role = some child) :
    child ∈ t.children ∧ child.role = some role :=
  ⟨List.mem_of_find?_eq_some h, by simpa using List.find?_some h⟩

end Tree

namespace Rule

variable {τ ν : Type}

mutual

/-- What a rule builds in a role, not in a node of its own. The rules it refers to by name are left
out. -/
def inRole (role : Role) : Rule τ ν → List (Rule τ ν)
  | terminal _ | call _ | without _ | built _ | node _ _ | onto _ _ _ _ => []
  | sequence rules | choice rules => inRoleAll role rules
  | many rule => rule.inRole role
  | within other rule => if other = role then [rule] else []

def inRoleAll (role : Role) : List (Rule τ ν) → List (Rule τ ν)
  | [] => []
  | rule :: rules => rule.inRole role ++ inRoleAll role rules

end

mutual

/-- Whether all trees that a rule adds are of fitting kinds. Some terminals read leaves of one kind. -/
def onlyAdds (reads : τ → Option Kind) (fits : Kind → Bool) : Rule τ ν → Bool
  | terminal token => (reads token).any fits
  | call _ => false
  | node kind _ | onto kind _ _ _ => fits kind
  | without _ | built _ => true
  | sequence rules | choice rules => onlyAddsAll reads fits rules
  | many rule | within _ rule => rule.onlyAdds reads fits

def onlyAddsAll (reads : τ → Option Kind) (fits : Kind → Bool) : List (Rule τ ν) → Bool
  | [] => true
  | rule :: rules => rule.onlyAdds reads fits && onlyAddsAll reads fits rules

end

/-- What a node of some kind has in a role is of a kind for one of the pairs, if there is any for the
node's. -/
def roleReads (role : Role) (pairs : List (Kind × Kind)) (reads : τ → Option Kind) (kind : Kind)
    (rule : Rule τ ν) : Bool :=
  !(pairs.map (·.1)).contains kind ||
    (rule.inRole role).all (·.onlyAdds reads fun child => pairs.contains (kind, child))

mutual

/-- Whether all nodes that a rule builds have in the role what they may have. -/
def nodesFit (role : Role) (pairs : List (Kind × Kind)) (reads : τ → Option Kind) : Rule τ ν → Bool
  | terminal _ | call _ | without _ | built _ => true
  | sequence rules | choice rules => nodesFitAll role pairs reads rules
  | many rule | within _ rule => rule.nodesFit role pairs reads
  | node kind rule => roleReads role pairs reads kind rule && rule.nodesFit role pairs reads
  | onto kind _ _ rule => !(pairs.map (·.1)).contains kind && rule.nodesFit role pairs reads

def nodesFitAll (role : Role) (pairs : List (Kind × Kind)) (reads : τ → Option Kind) :
    List (Rule τ ν) → Bool
  | [] => true
  | rule :: rules => rule.nodesFit role pairs reads && nodesFitAll role pairs reads rules

end

theorem onlyAdds_of_mem {reads : τ → Option Kind} {fits : Kind → Bool} {rule : Rule τ ν}
    {rules : List (Rule τ ν)} (h : onlyAddsAll reads fits rules = true) (hRule : rule ∈ rules) :
    rule.onlyAdds reads fits = true := by
  induction rules with
  | nil => cases hRule
  | cons first rest ih =>
      rw [onlyAddsAll, Bool.and_eq_true] at h
      rcases List.mem_cons.1 hRule with rfl | hRest
      · exact h.1
      · exact ih h.2 hRest

theorem nodesFit_of_mem {role : Role} {pairs : List (Kind × Kind)} {reads : τ → Option Kind}
    {rule : Rule τ ν} {rules : List (Rule τ ν)} (h : nodesFitAll role pairs reads rules = true)
    (hRule : rule ∈ rules) : rule.nodesFit role pairs reads = true := by
  induction rules with
  | nil => cases hRule
  | cons first rest ih =>
      rw [nodesFitAll, Bool.and_eq_true] at h
      rcases List.mem_cons.1 hRule with rfl | hRest
      · exact h.1
      · exact ih h.2 hRest

theorem mem_inRoleAll {role : Role} {rule inner : Rule τ ν} {rules : List (Rule τ ν)}
    (hRule : rule ∈ rules) (hInner : inner ∈ rule.inRole role) : inner ∈ inRoleAll role rules := by
  induction rules with
  | nil => cases hRule
  | cons first rest ih =>
      rw [inRoleAll, List.mem_append]
      rcases List.mem_cons.1 hRule with rfl | hRest
      · exact .inl hInner
      · exact .inr (ih hRest)

end Rule

namespace Shape

variable {τ ν : Type} {s : Shape τ ν} {role : Role} {pairs : List (Kind × Kind)}
  {reads : τ → Option Kind} {rule : Rule τ ν} {built built' : List Tree}

/-- Certain terminals stand for leaves of one kind; the rules give nodes in the role what they may have
and leave nothing in it to those that refer to them. -/
structure Names (s : Shape τ ν) (role : Role) (pairs : List (Kind × Kind))
    (reads : τ → Option Kind) : Prop where
  leaf : ∀ {terminal kind text}, s.leaf terminal kind text →
    ∀ named, reads terminal = some named → kind = named
  apart : ∀ name, (s.rule name).inRole role = []
  rule : ∀ name, (s.rule name).nodesFit role pairs reads = true

/-- What a rule adds is of the kinds that it is looked through for. -/
theorem Adds.kind_of_onlyAdds (hNames : s.Names role pairs reads) {fits : Kind → Bool}
    (h : Adds s rule built built') (hOnly : rule.onlyAdds reads fits = true) :
    ∀ t ∈ built', t ∈ built ∨ fits t.kind = true := by
  induction h with
  | leaf _ hLeaf =>
      intro t hT
      rcases List.mem_cons.1 hT with rfl | hOld
      · rw [Rule.onlyAdds, Option.any_eq_true] at hOnly
        obtain ⟨named, hKind, hFits⟩ := hOnly
        exact .inr (hNames.leaf hLeaf named hKind ▸ hFits)
      · exact .inl hOld
  | call => cases hOnly
  | nothing | sequenceNil | manyNil | without | built => exact fun t hT => .inl hT
  | sequenceCons _ _ ih ihRest =>
      rw [Rule.onlyAdds, Rule.onlyAddsAll, Bool.and_eq_true] at hOnly
      intro t hT
      rcases ihRest hOnly.2 t hT with hBefore | hFits
      · exact ih hOnly.1 t hBefore
      · exact .inr hFits
  | choice hRule _ ih => exact ih (Rule.onlyAdds_of_mem hOnly hRule)
  | manyCons _ _ ih ihRest =>
      intro t hT
      rcases ihRest hOnly t hT with hBefore | hFits
      · exact ih hOnly t hBefore
      · exact .inr hFits
  | node =>
      intro t hT
      rcases List.mem_cons.1 hT with rfl | hOld
      · exact .inr hOnly
      · exact .inl hOld
  | within _ ih =>
      intro t hT
      rcases List.mem_append.1 hT with hNew | hOld
      · obtain ⟨inner, hInner, rfl⟩ := List.mem_map.1 hNew
        rw [Tree.kind_withRole]
        exact .inr ((ih hOnly inner hInner).resolve_left (by simp))
      · exact .inl hOld
  | onto =>
      intro t hT
      rcases List.mem_cons.1 hT with rfl | hOld
      · exact .inr hOnly
      · exact .inl (List.mem_cons_of_mem _ hOld)

/-- A tree in a role is one of those built before, or a part of the rule has built it in this role. -/
theorem Adds.of_role (hApart : ∀ name, (s.rule name).inRole role = []) (h : Adds s rule built built') :
    ∀ t ∈ built', t.role = some role → t ∈ built ∨
      ∃ inner ∈ rule.inRole role, ∃ ts, Adds s inner [] ts ∧ ∃ t' ∈ ts, t = t'.withRole role := by
  induction h with
  | leaf =>
      intro t hT hRole
      rcases List.mem_cons.1 hT with rfl | hOld
      · cases hRole
      · exact .inl hOld
  | call _ ih =>
      rename_i name _ _ _
      intro t hT hRole
      refine (ih t hT hRole).imp_right ?_
      rw [hApart name]
      rintro ⟨_, hNone, _⟩
      cases hNone
  | nothing | sequenceNil | manyNil | without | built => exact fun t hT _ => .inl hT
  | sequenceCons _ _ ih ihRest =>
      intro t hT hRole
      rcases ihRest t hT hRole with hBefore | ⟨inner, hInner, hNew⟩
      · refine (ih t hBefore hRole).imp_right ?_
        rintro ⟨inner, hInner, hNew⟩
        exact ⟨inner, List.mem_append_left _ hInner, hNew⟩
      · exact .inr ⟨inner, List.mem_append_right _ hInner, hNew⟩
  | choice hMem _ ih =>
      intro t hT hRole
      refine (ih t hT hRole).imp_right ?_
      rintro ⟨inner, hInner, hNew⟩
      exact ⟨inner, Rule.mem_inRoleAll hMem hInner, hNew⟩
  | manyCons _ _ ih ihRest =>
      intro t hT hRole
      rcases ihRest t hT hRole with hBefore | hNew
      · exact ih t hBefore hRole
      · exact .inr hNew
  | node =>
      intro t hT hRole
      rcases List.mem_cons.1 hT with rfl | hOld
      · cases hRole
      · exact .inl hOld
  | within hInside =>
      rename_i other inner _ trees _
      intro t hT hRole
      rcases List.mem_append.1 hT with hNew | hOld
      · obtain ⟨t', hT', rfl⟩ := List.mem_map.1 hNew
        rw [Tree.role_withRole] at hRole
        cases Option.some.inj hRole
        exact .inr ⟨inner, by simp [Rule.inRole], trees, hInside, t', hT', rfl⟩
      · exact .inl hOld
  | onto =>
      intro t hT hRole
      rcases List.mem_cons.1 hT with rfl | hOld
      · cases hRole
      · exact .inl (List.mem_cons_of_mem _ hOld)

/-- A tree in the role is one of those built before, or it is of a kind that is added in the role. -/
theorem Adds.kind_of_role (hNames : s.Names role pairs reads) {fits : Kind → Bool}
    (h : Adds s rule built built')
    (hRule : ∀ inner ∈ rule.inRole role, inner.onlyAdds reads fits = true) :
    ∀ t ∈ built', t.role = some role → t ∈ built ∨ fits t.kind = true := by
  intro t hT hRole
  refine (h.of_role hNames.apart t hT hRole).imp_right ?_
  rintro ⟨inner, hInner, trees, hAdds, t', hT', rfl⟩
  rw [Tree.kind_withRole]
  exact (hAdds.kind_of_onlyAdds hNames (hRule inner hInner) t' hT').resolve_left (by simp)

/-- By induction over the derivation: where a rule adds a child in the role, its kind and that of
its parent are one of the pairs. -/
theorem Adds.roleFits (hNames : s.Names role pairs reads) (h : Adds s rule built built')
    (hRule : rule.nodesFit role pairs reads = true) (hBuilt : ∀ t ∈ built, t.RoleFits role pairs) :
    ∀ t ∈ built', t.RoleFits role pairs := by
  induction h with
  | leaf => exact List.forall_mem_cons.2 ⟨trivial, hBuilt⟩
  | call _ ih => exact ih (hNames.rule _) hBuilt
  | nothing | sequenceNil | manyNil | without | built => exact hBuilt
  | sequenceCons _ _ ih ihRest =>
      rw [Rule.nodesFit, Rule.nodesFitAll, Bool.and_eq_true] at hRule
      exact ihRest hRule.2 (ih hRule.1 hBuilt)
  | choice hMem _ ih => exact ih (Rule.nodesFit_of_mem hRule hMem) hBuilt
  | manyCons _ _ ih ihRest => exact ihRest hRule (ih hRule hBuilt)
  | node hInside ih =>
      rename_i kind _ _ _
      rw [Rule.nodesFit, Bool.and_eq_true] at hRule
      refine List.forall_mem_cons.2 ⟨⟨?_, ?_⟩, hBuilt⟩
      · intro t hT hRole hNamed
        rw [Rule.roleReads, List.contains_iff_mem.2 hNamed, Bool.not_true, Bool.false_or,
          List.all_eq_true] at hRule
        have hPair := hInside.kind_of_role hNames hRule.1 t (List.mem_reverse.1 hT) hRole
        exact List.contains_iff_mem.1 (hPair.resolve_left (by simp))
      · exact Tree.roleFitsAll_iff.2 fun t hT =>
          ih hRule.2 (by simp) t (List.mem_reverse.1 hT)
  | within _ ih =>
      intro t hT
      rcases List.mem_append.1 hT with hNew | hOld
      · obtain ⟨inner, hInner, rfl⟩ := List.mem_map.1 hNew
        exact Tree.roleFits_withRole.2 (ih hRule (by simp) inner hInner)
      · exact hBuilt t hOld
  | onto _ ih =>
      rename_i kind role' _ _ operand _ _ _
      rw [Rule.nodesFit, Bool.and_eq_true, Bool.not_eq_true', List.contains_eq_mem,
        decide_eq_false_iff_not] at hRule
      obtain ⟨hOperand, hBefore⟩ := List.forall_mem_cons.1 hBuilt
      refine List.forall_mem_cons.2 ⟨⟨fun _ _ _ hNamed => absurd hNamed hRule.1, ?_, ?_⟩, hBefore⟩
      · cases role' with
        | none => exact hOperand
        | some _ => exact Tree.roleFits_withRole.2 hOperand
      · exact Tree.roleFitsAll_iff.2 fun t hT =>
          ih hRule.2 (by simp) t (List.mem_reverse.1 hT)

/-- In a tree that the rules derive, every child in the role is what it may be. -/
theorem Derives.roleFits {first : Rule τ ν} {t : Tree} (h : s.Derives first rule t)
    (hNames : s.Names role pairs reads) (hProgram : .program ∉ pairs.map (·.1))
    (hFirst : first.nodesFit role pairs reads = true)
    (hRule : rule.nodesFit role pairs reads = true) : t.RoleFits role pairs := by
  obtain ⟨built, hAdds, rfl⟩ := h
  have hBuilt := hAdds.roleFits hNames
    (by simp [Rule.nodesFit, Rule.nodesFitAll, hFirst, hRule]) (by simp)
  exact ⟨fun _ _ _ hNamed => absurd hNamed hProgram,
    Tree.roleFitsAll_iff.2 fun t hT => hBuilt t (List.mem_reverse.1 hT)⟩

end Shape

end SourceSurvey.Syntax
