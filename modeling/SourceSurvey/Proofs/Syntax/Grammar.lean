import SourceSurvey.Syntax.Grammar

/-!
What a tree is made of: a property of the leaves and one of the nodes, which hold throughout the tree
and so for each of its parts.
-/

namespace SourceSurvey.Syntax

namespace Tree

mutual

/-- Every leaf of the tree has a kind and text, and every node a kind, with some property. -/
def Made (leafFits : Kind → String → Prop) (nodeFits : Kind → Prop) : Tree → Prop
  | leaf kind _ _ text => leafFits kind text
  | node kind _ children => nodeFits kind ∧ MadeAll leafFits nodeFits children

def MadeAll (leafFits : Kind → String → Prop) (nodeFits : Kind → Prop) : List Tree → Prop
  | [] => True
  | t :: ts => t.Made leafFits nodeFits ∧ MadeAll leafFits nodeFits ts

end

variable {leafFits : Kind → String → Prop} {nodeFits : Kind → Prop}

theorem madeAll_iff {ts : List Tree} :
    MadeAll leafFits nodeFits ts ↔ ∀ t ∈ ts, t.Made leafFits nodeFits := by
  induction ts with
  | nil => simp [MadeAll]
  | cons t ts ih => rw [MadeAll, ih, List.forall_mem_cons]

@[simp]
theorem made_withRole {role : Role} {t : Tree} :
    (t.withRole role).Made leafFits nodeFits ↔ t.Made leafFits nodeFits := by
  cases t <;> simp only [withRole, Made]

theorem Made.madeAll_children {t : Tree} (h : t.Made leafFits nodeFits) :
    MadeAll leafFits nodeFits t.children := by
  cases t with
  | leaf => trivial
  | node => exact h.2

/-! ### Parts of a tree -/

section Parts

variable {fits : Tree → Prop} {p : Place}

mutual

/-- What a tree passes on to its children is true of all its parts. -/
theorem inherited_of_mem_places (hPasses : ∀ ⦃t⦄, fits t → ∀ child ∈ t.children, fits child) :
    ∀ {t : Tree} {above : List Tree}, fits t → p ∈ t.places above → fits p.tree
  | leaf _ _ _ _, _, hFits, hP => by
      cases List.mem_singleton.1 hP
      exact hFits
  | node _ _ _, _, hFits, hP => by
      rcases List.mem_cons.1 hP with rfl | hBelow
      · exact hFits
      · exact inherited_of_mem_placesAll hPasses (hPasses hFits) hBelow

theorem inherited_of_mem_placesAll (hPasses : ∀ ⦃t⦄, fits t → ∀ child ∈ t.children, fits child) :
    ∀ {ts above : List Tree}, (∀ t ∈ ts, fits t) → p ∈ placesAll above ts → fits p.tree
  | [], _, _, hP => by cases hP
  | _ :: _, _, hFits, hP => by
      rw [List.forall_mem_cons] at hFits
      rcases List.mem_append.1 hP with hFirst | hRest
      · exact inherited_of_mem_places hPasses hFits.1 hFirst
      · exact inherited_of_mem_placesAll hPasses hFits.2 hRest

end

theorem Made.child {t : Tree} (h : t.Made leafFits nodeFits) :
    ∀ child ∈ t.children, child.Made leafFits nodeFits :=
  madeAll_iff.1 h.madeAll_children

/-- Each part of a tree is made as the whole is. -/
theorem Made.of_mem_places {t : Tree} {above : List Tree} (h : t.Made leafFits nodeFits)
    (hP : p ∈ t.places above) : p.tree.Made leafFits nodeFits :=
  inherited_of_mem_places (fun _ => Made.child) h hP

end Parts

end Tree

namespace Grammar

variable {τ ν σ : Type}

/-- A text that can be read has a tree around what the rules have built. -/
theorem exists_fits_of_parse {g : Grammar τ ν σ} {length : Nat} {first rule : Rule τ ν}
    {cursor : σ} {t : Tree} (h : g.parse length first rule cursor = .ok t) :
    ∃ q, g.run (fuelFor length) (.sequence [first, .many rule]) ⟨[], cursor, cursor⟩ = .fits q ∧
      t = .node .program none q.built.reverse := by
  rw [parse] at h
  split at h
  · rename_i q hFits
    split at h
    · cases h
      exact ⟨q, hFits, rfl⟩
    · cases h
  · cases h

end Grammar

end SourceSurvey.Syntax
