import SourceSurvey.Proofs.Syntax.Leaf
import SourceSurvey.Syntax.Query
import Mathlib.Data.List.Perm.Lattice

/-!
Where the parts of a tree stand in its text. The parts in document order begin further and further
on, except that a node may begin where its first part does; and they are, in another order, the
whole tree and all children of all parts.
-/

namespace SourceSurvey.Syntax

@[simp]
theorem byteLength_nil : byteLength [] = 0 := rfl

@[simp]
theorem byteLength_append (cs cs' : List Char) :
    byteLength (cs ++ cs') = byteLength cs + byteLength cs' := by
  rw [byteLength, List.map_append, total_append]
  rfl

/-- Any character has a byte at least. -/
theorem byteLength_pos {cs : List Char} (h : cs ≠ []) : 0 < byteLength cs := by
  cases cs with
  | nil => exact absurd rfl h
  | cons c cs =>
      have hFirst := Char.utf8Size_pos c
      rw [byteLength, List.map_cons, total_cons]
      omega

namespace Tree

namespace Site

/-- The parts of the part itself. -/
def below (s : Site) : List Site := sitesAll s.offset (s.tree :: s.above) s.tree.children

/-- How many bytes there are up to the end of the part. -/
def stop (s : Site) : Nat := s.offset + byteLength s.tree.source

end Site

variable {offset : Nat} {above : List Tree} {t : Tree} {ts : List Tree} {p q s : Site}

/-! ### Parts and children -/

theorem sites_eq (offset : Nat) (above : List Tree) (t : Tree) :
    sites offset above t =
      ⟨⟨t, above⟩, offset⟩ :: (⟨⟨t, above⟩, offset⟩ : Site).below := by
  cases t with
  | leaf => rfl
  | node => rfl

mutual

/-- The parts of a tree are the same whether it is known where they begin or not. -/
theorem map_toPlace_sites : ∀ (offset : Nat) (above : List Tree) (t : Tree),
    (sites offset above t).map Site.toPlace = places above t
  | _, _, leaf _ _ _ _ => rfl
  | offset, above, node kind role children => by
      rw [sites, places, List.map_cons, map_toPlace_sitesAll]

theorem map_toPlace_sitesAll : ∀ (offset : Nat) (above : List Tree) (ts : List Tree),
    (sitesAll offset above ts).map Site.toPlace = placesAll above ts
  | _, _, [] => rfl
  | offset, above, t :: ts => by
      rw [sitesAll, placesAll, List.map_append, map_toPlace_sites, map_toPlace_sitesAll]

end

theorem toPlace_mem_places (h : s ∈ sites offset above t) : s.toPlace ∈ t.places above :=
  map_toPlace_sites offset above t ▸ List.mem_map_of_mem h

/-- Trees stand beside each other one after the other, without anything between them. -/
theorem siblings_append (offset : Nat) (above ts ts' : List Tree) :
    siblings offset above (ts ++ ts') =
      siblings offset above ts ++ siblings (offset + byteLength (sourceAll ts)) above ts' := by
  induction ts generalizing offset with
  | nil => simp [siblings, sourceAll]
  | cons t ts ih =>
      rw [List.cons_append, siblings, siblings, ih, sourceAll, byteLength_append, Nat.add_assoc,
        List.cons_append]

theorem map_tree_siblings (offset : Nat) (above ts : List Tree) :
    (siblings offset above ts).map (·.tree) = ts := by
  induction ts generalizing offset with
  | nil => rfl
  | cons t ts ih => rw [siblings, List.map_cons, ih]

theorem map_tree_children (s : Site) : s.children.map (·.tree) = s.tree.children :=
  map_tree_siblings _ _ _

theorem above_of_mem_siblings (h : s ∈ siblings offset above ts) : s.above = above := by
  induction ts generalizing offset with
  | nil => cases h
  | cons t ts ih =>
      rcases List.mem_cons.1 h with rfl | hRest
      · rfl
      · exact ih hRest

theorem above_of_mem_children (h : s ∈ p.children) : s.above = p.tree :: p.above :=
  above_of_mem_siblings h

theorem tree_mem_children (h : s ∈ p.children) : s.tree ∈ p.tree.children :=
  map_tree_children p ▸ List.mem_map_of_mem h

mutual

/-- The parts of a tree are its children and those of its parts. -/
theorem below_perm : ∀ (offset : Nat) (above : List Tree) (t : Tree),
    (⟨⟨t, above⟩, offset⟩ : Site).below.Perm
      ((⟨⟨t, above⟩, offset⟩ : Site).children ++
        (⟨⟨t, above⟩, offset⟩ : Site).below.flatMap Site.children)
  | _, _, leaf _ _ _ _ => .nil
  | offset, above, node kind role children =>
      sitesAll_perm offset (node kind role children :: above) children

/-- By induction over the trees: all parts are the trees themselves and the children of all parts,
in another order. -/
theorem sitesAll_perm : ∀ (offset : Nat) (above ts : List Tree),
    (sitesAll offset above ts).Perm
      (siblings offset above ts ++ (sitesAll offset above ts).flatMap Site.children)
  | _, _, [] => .nil
  | offset, above, t :: ts => by
      let first : Site := ⟨⟨t, above⟩, offset⟩
      have hRest := sitesAll_perm (offset + byteLength t.source) above ts
      have hBelow : first.below.Perm (first.children ++ first.below.flatMap Site.children) :=
        below_perm offset above t
      rw [sitesAll, siblings, sites_eq, List.cons_append, List.cons_append, List.flatMap_cons,
        List.flatMap_append, ← List.append_assoc first.children]
      exact .cons first ((hBelow.append hRest).trans (List.perm_append_comm_assoc _ _ _))

end

/-- The parts of a tree are the tree itself and all children of parts. -/
theorem sites_perm (offset : Nat) (above : List Tree) (t : Tree) :
    (sites offset above t).Perm
      (⟨⟨t, above⟩, offset⟩ :: (sites offset above t).flatMap Site.children) := by
  rw [sites_eq, List.flatMap_cons]
  exact .cons _ (below_perm offset above t)

/-- The children of a part are parts. -/
theorem child_mem_sites (hC : s ∈ p.children) (hP : p ∈ sites offset above t) :
    s ∈ sites offset above t :=
  (sites_perm offset above t).mem_iff.2 (List.mem_cons_of_mem _ (List.mem_flatMap.2 ⟨p, hP, hC⟩))

/-- The first child in a role is a child and in the role. -/
theorem Site.of_child?_eq_some {role : Role} (h : p.child? role = some s) :
    s ∈ p.children ∧ s.role = some role :=
  ⟨List.mem_of_find?_eq_some h, by simpa using List.find?_some h⟩

/-- What is found at the children of a tree's parts, and is not found at the tree itself. -/
theorem filterMap_sites_perm {α : Type} {found : Site → Option α}
    (hRoot : found ⟨⟨t, above⟩, offset⟩ = none) :
    ((sites offset above t).filterMap found).Perm
      ((sites offset above t).flatMap fun s => s.children.filterMap found) := by
  have hPerm := (sites_perm offset above t).filterMap found
  rwa [List.filterMap_cons, hRoot, List.filterMap_flatMap] at hPerm

/-- Except for the root, parts can be looked for among the children of parts. -/
theorem filter_sites_perm {p : Site → Bool} (hRoot : p ⟨⟨t, above⟩, offset⟩ = false) :
    ((sites offset above t).filter p).Perm
      ((sites offset above t).flatMap fun s => s.children.filter p) := by
  have hPerm := (sites_perm offset above t).filter p
  rwa [List.filter_cons_of_neg (by simp [hRoot]), List.filter_flatMap] at hPerm

/-- What is gathered from parts, too. -/
theorem flatMap_sites_perm {α : Type} {f : Site → List α} (hRoot : f ⟨⟨t, above⟩, offset⟩ = []) :
    ((sites offset above t).flatMap f).Perm
      ((sites offset above t).flatMap fun s => s.children.flatMap f) := by
  have hPerm := (sites_perm offset above t).flatMap_right f
  rwa [List.flatMap_cons, hRoot, List.nil_append, List.flatMap_assoc] at hPerm

/-! ### What is found -/

section

variable {α : Type} {found : Site → Option α}

/-- Some parts gather what is found at them and below, none of them in another; and apart from that
nothing is found. -/
structure Gathers (found : Site → Option α) (gathers : Site → Bool) (s : Site) : Prop where
  apart : gathers s = true → ∀ q ∈ s.below, gathers q = false
  other : gathers s = false → ∀ c ∈ s.children, gathers c = true ∨ found c = none

variable {gathers : Site → Bool}

mutual

/-- What is found in a tree is what some of its parts gather, one after the other. -/
theorem filterMap_sites_eq_flatMap : ∀ {offset : Nat} {above : List Tree} {t : Tree},
    (∀ s ∈ sites offset above t, Gathers found gathers s) →
    gathers ⟨⟨t, above⟩, offset⟩ = true ∨ found ⟨⟨t, above⟩, offset⟩ = none →
      (sites offset above t).filterMap found =
        ((sites offset above t).filter gathers).flatMap fun s => (s :: s.below).filterMap found
  | offset, above, t, h, hFound => by
      rw [sites_eq] at h ⊢
      obtain ⟨hHere, hBelow⟩ := List.forall_mem_cons.1 h
      cases hGathers : gathers ⟨⟨t, above⟩, offset⟩ with
      | true =>
          have hApart := hHere.apart hGathers
          rw [List.filter_cons_of_pos hGathers, List.filter_eq_nil_iff.2 (by simpa using hApart),
            List.flatMap_singleton]
      | false =>
          have hNone : found ⟨⟨t, above⟩, offset⟩ = none := hFound.resolve_left (by simp [hGathers])
          rw [List.filterMap_cons_none hNone, List.filter_cons_of_neg (by simp [hGathers])]
          cases t with
          | leaf => rfl
          | node kind role children =>
              exact filterMap_sitesAll_eq_flatMap hBelow (hHere.other hGathers)

/-- To go through all parts finds what those that gather find for the parts below them. -/
theorem filterMap_sitesAll_eq_flatMap : ∀ {offset : Nat} {above ts : List Tree},
    (∀ s ∈ sitesAll offset above ts, Gathers found gathers s) →
    (∀ c ∈ siblings offset above ts, gathers c = true ∨ found c = none) →
      (sitesAll offset above ts).filterMap found = ((sitesAll offset above ts).filter
        gathers).flatMap fun s => (s :: s.below).filterMap found
  | _, _, [], _, _ => rfl
  | offset, above, t :: ts, h, hFound => by
      rw [sitesAll] at h ⊢
      obtain ⟨hFirst, hRest⟩ := List.forall_mem_append.1 h
      obtain ⟨hFound, hFounds⟩ := List.forall_mem_cons.1 hFound
      rw [List.filterMap_append, List.filter_append, List.flatMap_append,
        filterMap_sites_eq_flatMap hFirst hFound, filterMap_sitesAll_eq_flatMap hRest hFounds]

end

end

/-! ### Order -/

mutual

/-- The text of a part lies in that of the tree. -/
theorem bounds_of_mem_sites : ∀ {offset : Nat} {above : List Tree} {t : Tree},
    s ∈ sites offset above t →
      offset ≤ s.offset ∧ s.stop ≤ offset + byteLength t.source
  | _, _, leaf _ _ _ _, hS => by
      cases List.mem_singleton.1 hS
      exact ⟨Nat.le_refl _, Nat.le_refl _⟩
  | _, _, node _ _ _, hS => by
      rcases List.mem_cons.1 hS with rfl | hBelow
      · exact ⟨Nat.le_refl _, Nat.le_refl _⟩
      · exact bounds_of_mem_sitesAll hBelow

/-- A part stands within the text of the trees. -/
theorem bounds_of_mem_sitesAll : ∀ {offset : Nat} {above ts : List Tree},
    s ∈ sitesAll offset above ts →
      offset ≤ s.offset ∧ s.stop ≤ offset + byteLength (sourceAll ts)
  | _, _, [], hS => by cases hS
  | offset, above, t :: ts, hS => by
      rw [sitesAll] at hS
      rcases List.mem_append.1 hS with hFirst | hRest
      · obtain ⟨hBefore, hStop⟩ := bounds_of_mem_sites hFirst
        simp only [sourceAll, byteLength_append] at hStop ⊢
        omega
      · obtain ⟨hBefore, hStop⟩ := bounds_of_mem_sitesAll hRest
        simp only [sourceAll, byteLength_append] at hBefore hStop ⊢
        omega

end

/-- Of two parts the second is a part of the first or stands behind it. -/
def Site.Precedes (p q : Site) : Prop := q ∈ p.below ∨ p.stop ≤ q.offset

mutual

/-- In document order each part precedes those that come later. -/
theorem pairwise_precedes_sites : ∀ (offset : Nat) (above : List Tree) (t : Tree),
    (sites offset above t).Pairwise Site.Precedes
  | _, _, leaf _ _ _ _ => List.pairwise_singleton _ _
  | offset, _, node _ _ children =>
      List.pairwise_cons.2 ⟨fun _ hQ => .inl hQ, pairwise_precedes_sitesAll offset _ children⟩

theorem pairwise_precedes_sitesAll : ∀ (offset : Nat) (above ts : List Tree),
    (sitesAll offset above ts).Pairwise Site.Precedes
  | _, _, [] => .nil
  | offset, above, t :: ts => by
      refine List.pairwise_append.2 ⟨pairwise_precedes_sites offset above t,
        pairwise_precedes_sitesAll (offset + byteLength t.source) above ts, ?_⟩
      intro p hP q hQ
      exact .inr (Nat.le_trans (bounds_of_mem_sites hP).2 (bounds_of_mem_sitesAll hQ).1)

end

mutual

/-- In trees whose leaves all have a text, only the gap before it may be without one. -/
theorem gapLength_lt {fits : Kind → Prop} : ∀ {t : Tree},
    t.Made (fun _ text => text ≠ "") fits → t.source ≠ [] → t.gapLength < t.source.length
  | leaf _ _ gap text, hMade, _ => by
      have hText : 0 < text.length := Nat.pos_of_ne_zero fun h => hMade (String.length_eq_zero_iff.1 h)
      rw [gapLength, source, List.length_append, String.length_toList, String.length_toList]
      omega
  | node _ _ _, hMade, hSource => gapLengthAll_lt hMade.2 hSource

/-- If no leaf is empty, trees with any text have more than the gap before them. -/
theorem gapLengthAll_lt {fits : Kind → Prop} : ∀ {ts : List Tree},
    MadeAll (fun _ text => text ≠ "") fits ts → sourceAll ts ≠ [] →
      gapLengthAll ts < (sourceAll ts).length
  | [], _, hSource => absurd rfl hSource
  | t :: ts, hMade, hSource => by
      rw [gapLengthAll, sourceAll, List.length_append]
      split
      · rename_i hEmpty
        rw [sourceAll, List.isEmpty_iff.1 hEmpty, List.nil_append] at hSource
        have hRest := gapLengthAll_lt hMade.2 hSource
        omega
      · rename_i hFirst
        have hLt := gapLength_lt hMade.1 (mt List.isEmpty_iff.2 hFirst)
        omega

end

theorem gapLength_lt_of_text_ne (h : t.text ≠ "") : t.gapLength < t.source.length := by
  by_contra hLe
  rw [Tree.text, List.drop_eq_nil_iff.2 (Nat.le_of_not_lt hLe)] at h
  exact h rfl

/-- Such a part ends behind its beginning. -/
theorem Site.start_lt_stop (h : s.tree.gapLength < s.tree.source.length) : s.start < s.stop := by
  have hRest : 0 < byteLength (s.tree.source.drop s.tree.gapLength) :=
    byteLength_pos (mt List.drop_eq_nil_iff.1 (Nat.not_le.2 h))
  have hParts := congrArg byteLength (List.take_append_drop s.tree.gapLength s.tree.source)
  rw [Site.start, Site.stop]
  simp only [byteLength_append] at hParts ⊢
  omega

theorem Site.offset_le_start : s.offset ≤ s.start := Nat.le_add_right _ _

/-- A part with a text begins before all that is behind it and no part of it. -/
theorem Site.Precedes.start_lt (h : p.Precedes q)
    (hText : p.tree.gapLength < p.tree.source.length) (hApart : q ∉ p.below) :
    p.start < q.start := by
  have hStop := h.resolve_left hApart
  have hStart := start_lt_stop hText
  have hBefore := offset_le_start (s := q)
  omega

/-- What is found in a tree at parts that have a text, none of which is in another, begins further
and further on. -/
theorem pairwise_filterMap_sites {α : Type} {found : Site → Option α}
    (hText : ∀ p ∈ sites offset above t, (found p).isSome = true →
      p.tree.gapLength < p.tree.source.length)
    (hApart : ∀ p ∈ sites offset above t, (found p).isSome = true →
      ∀ q ∈ p.below, found q = none) :
    ((sites offset above t).filterMap fun p => (found p).map (p.start, ·)).Pairwise
      fun entry later => entry.1 < later.1 := by
  refine List.pairwise_filterMap.2 ((pairwise_precedes_sites offset above t).imp_of_mem ?_)
  intro p q hP _ hPrecedes entry hEntry later hLater
  obtain ⟨_, hFound, rfl⟩ := Option.map_eq_some_iff.1 hEntry
  obtain ⟨_, hLaterFound, rfl⟩ := Option.map_eq_some_iff.1 hLater
  have hSome : (found p).isSome = true := by simp [hFound]
  refine hPrecedes.start_lt (hText p hP hSome) ?_
  intro hBelow
  cases (hApart p hP hSome q hBelow).symm.trans hLaterFound

end Tree

end SourceSurvey.Syntax
