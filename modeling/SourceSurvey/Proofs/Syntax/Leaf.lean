import SourceSurvey.Proofs.Syntax.Grammar

/-!
Leaves of syntax trees. What holds of every leaf that some terminal reads holds of all leaves of the
trees that are read.
-/

namespace SourceSurvey.Syntax

/-! ### Reading -/

section

variable {σ : Type} {good : σ → Prop} {fits : Kind → String → Prop} {solid : Bool} {cursor : σ}
  {result : Option (List Tree × σ)}

/-- If something is read, then up to a good cursor, and it is a fitting leaf in no role where what is
read is solid, and else nothing. -/
def ReadsLeaf (good : σ → Prop) (fits : Kind → String → Prop) (solid : Bool)
    (result : Option (List Tree × σ)) : Prop :=
  ∀ ⦃trees after⦄, result = some (trees, after) → good after ∧
    ((solid = false ∧ trees = []) ∨
      (solid = true ∧ ∃ kind gap text, trees = [.leaf kind none gap text] ∧ fits kind text))

theorem readsLeaf_none : ReadsLeaf good fits solid none := nofun

/-- A terminal that is not solid may read nothing. -/
theorem readsLeaf_nothing (h : good cursor) : ReadsLeaf good fits false (some ([], cursor)) := by
  intro trees after hRead
  cases hRead
  exact ⟨h, .inl ⟨rfl, rfl⟩⟩

/-- A solid terminal reads one leaf, whose text fits its kind. -/
theorem readsLeaf_leaf {kind : Kind} {gap text : String} (hSolid : solid = true)
    (h : good cursor) (hFits : fits kind text) :
    ReadsLeaf good fits solid (some ([.leaf kind none gap text], cursor)) := by
  intro trees after hRead
  cases hRead
  exact ⟨h, .inr ⟨hSolid, kind, gap, text, rfl, hFits⟩⟩

theorem ReadsLeaf.ite {p : Prop} [Decidable p] (h : p → ReadsLeaf good fits solid result) :
    ReadsLeaf good fits solid (if p then result else none) := by
  split
  · exact h ‹p›
  · exact readsLeaf_none

theorem readsLeaf_bind {α : Type} {x : Option α} {f : α → Option (List Tree × σ)}
    (h : ∀ a, x = some a → ReadsLeaf good fits solid (f a)) :
    ReadsLeaf good fits solid (x.bind f) := by
  cases x with
  | none => exact readsLeaf_none
  | some a => exact h a rfl

/-- What is done to the cursor behind makes no difference for what has been read. -/
theorem ReadsLeaf.map {f : List Tree × σ → List Tree × σ} (h : ReadsLeaf good fits solid result)
    (hTrees : ∀ read, (f read).1 = read.1) (hGood : ∀ read, good read.2 → good (f read).2) :
    ReadsLeaf good fits solid (result.map f) := by
  cases result with
  | none => exact readsLeaf_none
  | some read =>
      intro trees after hRead
      obtain ⟨hAfter, hLeaf⟩ := h rfl
      obtain ⟨rfl, rfl⟩ : trees = (f read).1 ∧ after = (f read).2 := by
        rw [Option.some.inj hRead]
        exact ⟨rfl, rfl⟩
      exact ⟨hGood read hAfter, hTrees read ▸ hLeaf⟩

theorem ReadsLeaf.imp {good' : σ → Prop} {fits' : Kind → String → Prop}
    (h : ReadsLeaf good fits solid result) (hGood : ∀ after, good after → good' after)
    (hFits : ∀ kind text, fits kind text → fits' kind text) :
    ReadsLeaf good' fits' solid result := by
  intro trees after hRead
  obtain ⟨hAfter, hNothing | ⟨hSolid, kind, gap, text, hTrees, hLeaf⟩⟩ := h hRead
  · exact ⟨hGood after hAfter, .inl hNothing⟩
  · exact ⟨hGood after hAfter, .inr ⟨hSolid, kind, gap, text, hTrees, hFits kind text hLeaf⟩⟩

/-- What is taken from a text is not empty if nothing is taken from an empty one. -/
theorem ofList_take_ne_empty {cs : List Char} {length : Nat} (hLength : length ≠ 0)
    (hEmpty : cs = [] → length = 0) : String.ofList (cs.take length) ≠ "" := by
  intro hText
  have hTake := congrArg String.toList hText
  rw [String.toList_ofList, String.toList_empty, List.take_eq_nil_iff] at hTake
  exact hLength (hTake.elim id hEmpty)

end

/-! ### Leaves of trees -/

namespace Tree

variable {leafFits leafFits' : Kind → String → Prop} {nodeFits nodeFits' : Kind → Prop}

mutual

theorem Made.imp (hLeaf : ∀ kind text, leafFits kind text → leafFits' kind text)
    (hNode : ∀ kind, nodeFits kind → nodeFits' kind) :
    ∀ {t : Tree}, t.Made leafFits nodeFits → t.Made leafFits' nodeFits'
  | leaf _ _ _ _, h => hLeaf _ _ h
  | node _ _ _, h => ⟨hNode _ h.1, h.2.imp hLeaf hNode⟩

theorem MadeAll.imp (hLeaf : ∀ kind text, leafFits kind text → leafFits' kind text)
    (hNode : ∀ kind, nodeFits kind → nodeFits' kind) :
    ∀ {ts : List Tree}, MadeAll leafFits nodeFits ts → MadeAll leafFits' nodeFits' ts
  | [], _ => trivial
  | _ :: _, h => ⟨h.1.imp hLeaf hNode, h.2.imp hLeaf hNode⟩

end

theorem text_leaf (kind : Kind) (role : Option Role) (gap text : String) :
    (leaf kind role gap text).text = text := by
  rw [Tree.text, source, gapLength, ← String.length_toList, List.drop_left, String.ofList_toList]

mutual

/-- The node around a part of a tree in a node is this node or one in the tree. -/
theorem Made.parentKind_of_mem_places {parent : Tree} {above : List Tree} {p : Place} :
    ∀ {t : Tree}, t.Made leafFits nodeFits → p ∈ t.places (parent :: above) →
      ∃ kind, p.parentKind? = some kind ∧ (kind = parent.kind ∨ nodeFits kind)
  | leaf _ _ _ _, _, hP => by
      cases List.mem_singleton.1 hP
      exact ⟨parent.kind, rfl, .inl rfl⟩
  | node kind _ _, hMade, hP => by
      rcases List.mem_cons.1 hP with rfl | hBelow
      · exact ⟨parent.kind, rfl, .inl rfl⟩
      · obtain ⟨inner, hKind, hInner⟩ := hMade.2.parentKind_of_mem_placesAll hBelow
        refine ⟨inner, hKind, .inr ?_⟩
        rcases hInner with rfl | hFits
        · exact hMade.1
        · exact hFits

theorem MadeAll.parentKind_of_mem_placesAll {parent : Tree} {above : List Tree} {p : Place} :
    ∀ {ts : List Tree}, MadeAll leafFits nodeFits ts → p ∈ placesAll (parent :: above) ts →
      ∃ kind, p.parentKind? = some kind ∧ (kind = parent.kind ∨ nodeFits kind)
  | [], _, hP => by cases hP
  | _ :: _, hMade, hP => by
      rcases List.mem_append.1 hP with hFirst | hRest
      · exact hMade.1.parentKind_of_mem_places hFirst
      · exact hMade.2.parentKind_of_mem_placesAll hRest

end

/-- A part of a kind that no node is of is a leaf. -/
theorem Made.leaf_of_kind {t : Tree} (h : t.Made leafFits nodeFits) (hKind : ¬nodeFits t.kind) :
    leafFits t.kind t.text ∧ t.children = [] := by
  cases t with
  | leaf kind role gap text =>
      rw [text_leaf]
      exact ⟨h, rfl⟩
  | node => exact absurd h.1 hKind

end Tree

end SourceSurvey.Syntax
