import SourceSurvey.Proofs.Syntax.Children
import SourceSurvey.Proofs.Syntax.Name
import SourceSurvey.Proofs.Syntax.Site
import Mathlib.Data.List.Nodup

/-!
Queries for the children of nodes, and what is made of what they find: texts sorted by where they
begin.
-/

namespace SourceSurvey.Syntax

open Syntax.Tree

/-! ### Order of what is found -/

/-- The texts are those found, each once and in the order of where they begin, which is never the
same; so it makes no difference in which order they were found. -/
structure Reports (found : List (Nat × String)) (texts : List String) : Prop where
  ascending : ∃ ordered, List.Perm ordered found ∧
    ordered.Pairwise (fun entry later => entry.1 < later.1) ∧ ordered.map (·.2) = texts
  sorted : ∀ ⦃found'⦄, List.Perm found' found → inSourceOrder found' = texts

/-- There is one way to put entries in order that begin at different places. -/
theorem mergeSort_eq_of_perm {found ordered : List (Nat × String)} (hPerm : found.Perm ordered)
    (hOrdered : ordered.Pairwise fun entry later => entry.1 < later.1) :
    (found.mergeSort fun entry later => entry.1 ≤ later.1) = ordered := by
  have hSorted : (found.mergeSort fun entry later => entry.1 ≤ later.1).Pairwise
      fun entry later => entry.1 ≤ later.1 := by
    have hPairwise : (found.mergeSort fun entry later => entry.1 ≤ later.1).Pairwise
        fun entry later => decide (entry.1 ≤ later.1) = true :=
      List.pairwise_mergeSort (by simp; omega) (by simp; omega) found
    simpa using hPairwise
  have hSame := (List.mergeSort_perm found fun entry later => entry.1 ≤ later.1).trans hPerm
  have hStarts : (ordered.map (·.1)).Nodup :=
    List.pairwise_map.2 (hOrdered.imp fun h => Nat.ne_of_lt h)
  refine hSame.eq_of_pairwise ?_ hSorted (hOrdered.imp Nat.le_of_lt)
  intro entry later hEntry hLater hLe hGe
  exact List.inj_on_of_nodup_map hStarts (hSame.mem_iff.1 hEntry) hLater (Nat.le_antisymm hLe hGe)

/-- So it is enough to have the same entries, in ascending order. -/
theorem reports_of_perm {found ordered : List (Nat × String)} (hPerm : ordered.Perm found)
    (hOrdered : ordered.Pairwise fun entry later => entry.1 < later.1) :
    Reports found (ordered.map (·.2)) where
  ascending := ⟨ordered, hPerm, hOrdered, rfl⟩
  sorted := fun found' hFound => by
    rw [inSourceOrder, mergeSort_eq_of_perm (hFound.trans hPerm.symm) hOrdered]

theorem mem_inSourceOrder {found : List (Nat × String)} {text : String} :
    text ∈ inSourceOrder found ↔ ∃ start, (start, text) ∈ found := by
  simp only [inSourceOrder, List.mem_map, List.mem_mergeSort, Prod.exists, exists_eq_right]

theorem map_filter_eq_filterMap {α β : Type} (p : α → Bool) (f : α → β) (xs : List α) :
    (xs.filter p).map f = xs.filterMap fun x => if p x then some (f x) else none := by
  rw [← List.filterMap_eq_map, List.filterMap_filter]
  rfl

theorem flatMap_filter_eq {α β : Type} (p : α → Bool) (f : α → List β) (xs : List α) :
    (xs.filter p).flatMap f = xs.flatMap fun x => if p x then f x else [] := by
  induction xs with
  | nil => rfl
  | cons x xs ih =>
      rw [List.filter_cons, List.flatMap_cons, ← ih]
      split <;> rfl

theorem eq_nil_or_exists_eq_singleton {α : Type} {xs : List α} (h : xs.length ≤ 1) :
    xs = [] ∨ ∃ x, xs = [x] :=
  (Nat.le_one_iff_eq_zero_or_eq_one.1 h).imp List.length_eq_zero_iff.1 List.length_eq_one_iff.1

/-! ### Patterns -/

namespace Pattern

variable {pattern : Pattern} {s : Site} {children : List Site}

/-- Without a value to ask for, there is one way for each child. -/
theorem among_of_value_eq_none (h : pattern.value = none) :
    pattern.among children =
      children.filter fun s => s.role = some pattern.role && s.kind = pattern.child := by
  induction children with
  | nil => rfl
  | cons s later ih =>
      rw [among, ih, ways, h, fits, List.filter_cons]
      split
      · rfl
      · rfl

/-- What is captured at a node is a child of the kind and in the role that the pattern asks for. -/
theorem of_mem_captures {c : Site} (h : c ∈ pattern.captures s) :
    c ∈ s.children ∧ s.kind = pattern.node ∧ c.kind = pattern.child := by
  rw [captures, List.mem_ite_nil_right] at h
  obtain ⟨hNode, hAmong⟩ := h
  suffices ∀ {children}, c ∈ pattern.among children → c ∈ children ∧ c.kind = pattern.child from
    ⟨(this hAmong).1, hNode, (this hAmong).2⟩
  intro children hMem
  induction children with
  | nil => cases hMem
  | cons first later ih =>
      rcases List.mem_append.1 hMem with hFirst | hLater
      · obtain ⟨hFits, hSame⟩ := List.mem_ite_nil_right.1 hFirst
        cases List.eq_of_mem_replicate hSame
        simp only [fits, Bool.and_eq_true, decide_eq_true_eq] at hFits
        exact ⟨List.mem_cons_self, hFits.2⟩
      · exact ⟨List.mem_cons_of_mem _ (ih hLater).1, (ih hLater).2⟩

/-- Without a value to ask for, a child that fits is captured. -/
theorem mem_captures {c : Site} (hValue : pattern.value = none) (hNode : s.kind = pattern.node)
    (hC : c ∈ s.children) (hRole : c.role = some pattern.role) (hKind : c.kind = pattern.child) :
    c ∈ pattern.captures s := by
  rw [captures, if_pos hNode, among_of_value_eq_none hValue]
  exact List.mem_filter.2 ⟨hC, by simp [hRole, hKind]⟩

/-- With one value at most, and that at the end, there is one way for each child or none. -/
theorem among_append {kinds : List Kind} (hValue : pattern.value = some kinds)
    (hRole : pattern.role ≠ .value) {front last : List Site} (hLength : last.length ≤ 1)
    (hFront : ∀ s ∈ front, s.role ≠ some .value) (hLast : ∀ s ∈ last, s.role = some .value) :
    pattern.among (front ++ last) =
      if last.any (kinds.contains ·.kind) then
        (front ++ last).filter fun s => s.role = some pattern.role && s.kind = pattern.child
      else [] := by
  have hValueFits : ∀ s ∈ last, pattern.fits s = false := by
    intro s hS
    simp [fits, hLast s hS, hRole.symm]
  induction front with
  | nil =>
      rcases eq_nil_or_exists_eq_singleton hLength with rfl | ⟨value, rfl⟩
      · simp [among]
      · have hFits := hValueFits value List.mem_cons_self
        simp only [fits] at hFits
        simp [among, fits, hFits]
  | cons s front ih =>
      obtain ⟨_, hRest⟩ := List.forall_mem_cons.1 hFront
      have hWays : pattern.ways (front ++ last) =
          if last.any (kinds.contains ·.kind) then 1 else 0 := by
        have hNone : front.countP (fun s => s.role = some .value && kinds.contains s.kind) = 0 :=
          List.countP_eq_zero.2 fun s hS => by simp [hRest s hS]
        rw [ways, hValue]
        simp only [List.countP_append, hNone, Nat.zero_add]
        rcases eq_nil_or_exists_eq_singleton hLength with rfl | ⟨value, rfl⟩
        · rfl
        · simp [hLast value List.mem_cons_self, List.countP_cons]
      rw [List.cons_append, among, ih hRest, hWays, fits, List.filter_cons]
      cases hAny : last.any (kinds.contains ·.kind) with
      | false => simp
      | true =>
          rw [if_pos rfl, if_pos rfl]
          split
          · rfl
          · rfl

end Pattern

/-- The value of a node, if it is of one of some kinds. -/
def hasValue (kinds : List Kind) (t : Tree) : Bool :=
  (t.child? .value).any (kinds.contains ·.kind)

/-- Where only the last child can be a value, a pattern that asks for one captures each child that fits
once, if the node has a value that fits, and none otherwise. -/
theorem Pattern.among_children {pattern : Pattern} {kinds : List Kind} {s : Site}
    (hValue : pattern.value = some kinds) (hRole : pattern.role ≠ .value)
    (h : LastInRole .value s.tree.children) :
    pattern.among s.children =
      if hasValue kinds s.tree then
        s.children.filter fun c => c.role = some pattern.role && c.kind = pattern.child
      else [] := by
  obtain ⟨front, last, hChildren, hLength, hFront, hLast⟩ := h
  have hHas : hasValue kinds s.tree = last.any (kinds.contains ·.kind) := by
    have hNone : front.find? (·.role = some .value) = none := by
      simpa using hFront
    rw [hasValue, Tree.child?, hChildren, List.find?_append, hNone, Option.none_or]
    rcases eq_nil_or_exists_eq_singleton hLength with rfl | ⟨value, rfl⟩
    · rfl
    · simp [hLast value List.mem_cons_self]
  rw [Site.children, hChildren, siblings_append, hHas]
  have hMap := map_tree_siblings s.offset (s.tree :: s.above) front
  have hMap' := map_tree_siblings (s.offset + byteLength (sourceAll front)) (s.tree :: s.above) last
  generalize siblings s.offset (s.tree :: s.above) front = front' at hMap ⊢
  generalize siblings (s.offset + byteLength (sourceAll front)) (s.tree :: s.above) last = last'
    at hMap' ⊢
  subst hMap hMap'
  have hFront' : ∀ c ∈ front', c.role ≠ some .value := fun c hC =>
    hFront c.tree (List.mem_map_of_mem hC)
  have hLast' : ∀ c ∈ last', c.role = some .value := fun c hC =>
    hLast c.tree (List.mem_map_of_mem hC)
  rw [Pattern.among_append hValue hRole (List.length_map _ ▸ hLength) hFront' hLast', List.any_map]
  rfl

namespace Pattern

/-- A child of a node is captured. -/
def captures? (pattern : Pattern) (parent : Tree) (c : Place) : Bool :=
  parent.kind = pattern.node && c.role = some pattern.role && c.kind = pattern.child &&
    pattern.value.all (hasValue · parent)

/-- Each child that is captured at a node is captured once. -/
theorem captures_eq {pattern : Pattern} {s : Site} (hRole : pattern.role ≠ .value)
    (hLast : pattern.value.isSome = true → s.kind = pattern.node →
      LastInRole .value s.tree.children) :
    pattern.captures s = s.children.filter fun c => pattern.captures? s.tree c.toPlace := by
  rw [captures]
  by_cases hNode : s.kind = pattern.node
  · have hTree : s.tree.kind = pattern.node := hNode
    rw [if_pos hNode]
    cases hValue : pattern.value with
    | none =>
        rw [among_of_value_eq_none hValue]
        simp [captures?, hTree, hValue]
    | some kinds =>
        rw [among_children hValue hRole (hLast (by simp [hValue]) hNode)]
        cases hHas : hasValue kinds s.tree <;> simp [captures?, hTree, hValue, hHas]
  · have hTree : s.tree.kind ≠ pattern.node := hNode
    simp [captures?, hNode, hTree]

end Pattern

/-- With one pattern for each kind of node, each child that is captured is captured once. -/
theorem flatMap_captures {patterns : List Pattern} {s : Site}
    (hNodup : (patterns.map (·.node)).Nodup) (hRole : ∀ pattern ∈ patterns, pattern.role ≠ .value)
    (hLast : ∀ pattern ∈ patterns, pattern.value.isSome = true → s.kind = pattern.node →
      LastInRole .value s.tree.children) :
    patterns.flatMap (·.captures s) =
      s.children.filter fun c => patterns.any (·.captures? s.tree c.toPlace) := by
  induction patterns with
  | nil => simp
  | cons pattern patterns ih =>
      obtain ⟨hHead, hTail⟩ := List.nodup_cons.1 hNodup
      obtain ⟨hRole, hRoles⟩ := List.forall_mem_cons.1 hRole
      obtain ⟨hLast, hLasts⟩ := List.forall_mem_cons.1 hLast
      rw [List.flatMap_cons, ih hTail hRoles hLasts, Pattern.captures_eq hRole hLast]
      by_cases hNode : s.tree.kind = pattern.node
      · -- the other patterns are for other nodes
        have hOther : ∀ c : Site, patterns.any (·.captures? s.tree c.toPlace) = false := by
          intro c
          refine List.any_eq_false.2 fun other hOther => ?_
          have hNe : s.tree.kind ≠ other.node := fun hSame =>
            hHead (List.mem_map.2 ⟨other, hOther, hSame.symm.trans hNode⟩)
          simp [Pattern.captures?, hNe]
        simp [hOther]
      · simp [Pattern.captures?, hNode]

/-- The patterns for names of some kinds in nodes of some kinds. -/
def namePatterns (pairs : List (Kind × Kind)) : List Pattern :=
  pairs.map fun pair => ⟨pair.1, .name, pair.2, none⟩

/-- Patterns for names capture the names of the kinds they list, each in nodes of its own kinds. -/
theorem any_captures?_namePatterns (pairs : List (Kind × Kind)) (parent : Tree) (c : Place) :
    (namePatterns pairs).any (·.captures? parent c) =
      (c.role = some .name && pairs.contains (parent.kind, c.kind)) := by
  rw [Bool.eq_iff_iff]
  simp only [namePatterns, Pattern.captures?, List.any_map, Function.comp_def, List.any_eq_true,
    Option.all_none, Bool.and_true, Bool.and_eq_true, decide_eq_true_eq, List.contains_iff_mem]
  constructor
  · rintro ⟨pair, hPair, ⟨hNode, hRole⟩, hKind⟩
    exact ⟨hRole, hNode ▸ hKind ▸ hPair⟩
  · rintro ⟨hRole, hPair⟩
    exact ⟨_, hPair, ⟨rfl, hRole⟩, rfl⟩

/-- What is captured is a child that one of the patterns captures in its parent. -/
theorem mem_captured {patterns : List Pattern} {t : Tree} {entry : Nat × String} :
    entry ∈ captured patterns t ↔ ∃ s ∈ t.sites 0 [], ∃ pattern ∈ patterns,
      ∃ c ∈ pattern.captures s, c.entry = entry := by
  simp only [captured, capturedAt, List.mem_flatMap, List.mem_map]
  constructor
  · rintro ⟨s, hS, c, ⟨pattern, hPattern, hC⟩, hEntry⟩
    exact ⟨s, hS, pattern, hPattern, c, hC, hEntry⟩
  · rintro ⟨s, hS, pattern, hPattern, c, hC, hEntry⟩
    exact ⟨s, hS, c, ⟨pattern, hPattern, hC⟩, hEntry⟩

/-- Captured names are on one line, where all names in the tree are. -/
theorem oneLine_of_mem_captured {patterns : List Pattern} {t : Tree} (h : t.NamesOneLine)
    (hName : ∀ pattern ∈ patterns, pattern.child ∈ nameKinds) :
    ∀ text ∈ inSourceOrder (captured patterns t), Text.OneLine text := by
  intro text hText
  obtain ⟨_, hEntry⟩ := mem_inSourceOrder.1 hText
  obtain ⟨s, hS, pattern, hPattern, c, hC, hSame⟩ := mem_captured.1 hEntry
  obtain ⟨hChild, _, hKind⟩ := Pattern.of_mem_captures hC
  cases hSame
  refine h.oneLine_text (toPlace_mem_places (child_mem_sites hChild hS)) ?_
  rw [hKind]
  exact hName pattern hPattern

/-- No two names begin together. -/
theorem eq_of_start_eq {t : Tree} (hLegible : t.Legible) {c c' : Site} (hC : c ∈ t.sites 0 [])
    (hC' : c' ∈ t.sites 0 []) (hName : c.kind ∈ nameKinds) (hName' : c'.kind ∈ nameKinds)
    (hStart : c.start = c'.start) : c = c' := by
  let names := (t.sites 0 []).filter (·.kind ∈ nameKinds)
  have hOrdered : names.Pairwise fun s later => s.start < later.start := by
    refine ((pairwise_precedes_sites 0 [] t).filter _).imp_of_mem fun hS _ hPrecedes => ?_
    obtain ⟨hMem, hKind⟩ := List.mem_filter.1 hS
    have hMade := hLegible.of_mem_places (toPlace_mem_places hMem)
    obtain ⟨⟨hText, _⟩, hLeaf⟩ := hMade.leaf_of_kind (not_not_intro (of_decide_eq_true hKind))
    refine hPrecedes.start_lt (gapLength_lt_of_text_ne hText) ?_
    rw [Site.below, hLeaf]
    exact List.not_mem_nil
  have hNodup : (names.map Site.start).Nodup :=
    List.pairwise_map.2 (hOrdered.imp fun hLt => Nat.ne_of_lt hLt)
  exact List.inj_on_of_nodup_map hNodup (List.mem_filter.2 ⟨hC, decide_eq_true hName⟩)
    (List.mem_filter.2 ⟨hC', decide_eq_true hName'⟩) hStart

/-! ### Facts that a tree is searched for -/

/-- What is found in a tree, part by part, with where the parts begin. -/
def foundIn (found : Place → Option String) (t : Tree) : List (Nat × String) :=
  (t.sites 0 []).filterMap fun s => (found s.toPlace).map (s.start, ·)

variable {found : Place → Option String} {t : Tree}

/-- The entries of what has been found, without where they begin, are those of the traversal. -/
theorem map_foundIn : (foundIn found t).map (·.2) = (t.places []).filterMap found := by
  rw [foundIn, List.map_filterMap, ← map_toPlace_sites 0, List.filterMap_map]
  refine List.filterMap_congr fun s _ => ?_
  cases hFound : found s.toPlace with
  | none => simp [hFound]
  | some text => simp [hFound]

/-- What is found at parts with a text that lie apart is listed in the order of where it begins. -/
theorem reports_of_foundIn {entries : List (Nat × String)}
    (hPerm : (foundIn found t).Perm entries)
    (hText : ∀ s ∈ t.sites 0 [], (found s.toPlace).isSome = true → s.text ≠ "")
    (hApart : ∀ s ∈ t.sites 0 [], (found s.toPlace).isSome = true →
      ∀ q ∈ s.below, found q.toPlace = none) :
    Reports entries ((t.places []).filterMap found) := by
  rw [← map_foundIn]
  refine reports_of_perm hPerm (pairwise_filterMap_sites (fun s hS hFound => ?_) hApart)
  exact gapLength_lt_of_text_ne (hText s hS hFound)

/-- Leaves lie apart. -/
theorem reports_of_leaves {entries : List (Nat × String)}
    (hPerm : (foundIn found t).Perm entries)
    (hLeaf : ∀ s ∈ t.sites 0 [], (found s.toPlace).isSome = true →
      s.text ≠ "" ∧ s.tree.children = []) :
    Reports entries ((t.places []).filterMap found) := by
  refine reports_of_foundIn hPerm (fun s hS hFound => (hLeaf s hS hFound).1) ?_
  intro s hS hFound q hBelow
  rw [Site.below, (hLeaf s hS hFound).2] at hBelow
  cases hBelow

section

variable {patterns : List Pattern}

/-- What is found at the children of nodes is what some patterns capture there. -/
theorem foundIn_perm_captured (hRoot : ∀ c, found ⟨c, []⟩ = none)
    (hFound : ∀ c parent above, found ⟨c, parent :: above⟩ =
      if patterns.any (·.captures? parent ⟨c, parent :: above⟩) then some c.text else none)
    (hNodup : (patterns.map (·.node)).Nodup) (hRole : ∀ pattern ∈ patterns, pattern.role ≠ .value)
    (hLast : ∀ pattern ∈ patterns, pattern.value.isSome = true →
      t.ChildrenFit pattern.node (LastInRole .value)) :
    (foundIn found t).Perm (captured patterns t) := by
  refine (filterMap_sites_perm (by rw [hRoot t, Option.map_none])).trans ?_
  rw [captured, List.flatMap_congr]
  intro s hS
  have hLastHere : ∀ pattern ∈ patterns, pattern.value.isSome = true → s.kind = pattern.node →
      LastInRole .value s.tree.children := fun pattern hMem hValue hNode =>
    ((hLast pattern hMem hValue).of_mem_places (toPlace_mem_places hS)).fits_children hNode
  rw [capturedAt, flatMap_captures hNodup hRole hLastHere, map_filter_eq_filterMap]
  refine List.filterMap_congr fun c hC => ?_
  obtain ⟨⟨tree, above⟩, offset⟩ := c
  cases (above_of_mem_children hC : above = s.tree :: s.above)
  rw [hFound]
  exact apply_ite (Option.map _) _ _ _

/-- The facts that are the names captured by some patterns, no two of them for the same kind of nodes,
are listed in the order of where the names begin. -/
theorem reports_captured (hLegible : t.Legible) (hRoot : ∀ c, found ⟨c, []⟩ = none)
    (hFound : ∀ c parent above, found ⟨c, parent :: above⟩ =
      if patterns.any (·.captures? parent ⟨c, parent :: above⟩) then some c.text else none)
    (hNodup : (patterns.map (·.node)).Nodup) (hRole : ∀ pattern ∈ patterns, pattern.role ≠ .value)
    (hName : ∀ pattern ∈ patterns, pattern.child ∈ nameKinds)
    (hLast : ∀ pattern ∈ patterns, pattern.value.isSome = true →
      t.ChildrenFit pattern.node (LastInRole .value)) :
    Reports (captured patterns t) ((t.places []).filterMap found) := by
  refine reports_of_leaves (foundIn_perm_captured hRoot hFound hNodup hRole hLast) ?_
  intro s hS hSome
  have hMade := hLegible.of_mem_places (toPlace_mem_places hS)
  obtain ⟨⟨tree, above⟩, offset⟩ := s
  cases above with
  | nil => cases (hRoot tree).symm.trans (Option.eq_some_of_isSome hSome)
  | cons parent above =>
      rw [hFound, Option.isSome_ite, List.any_eq_true] at hSome
      obtain ⟨pattern, hMem, hCaptures⟩ := hSome
      have hKind : tree.kind ∈ nameKinds := by
        simp only [Pattern.captures?, Bool.and_eq_true, decide_eq_true_eq] at hCaptures
        rw [show tree.kind = pattern.child from hCaptures.1.2]
        exact hName pattern hMem
      obtain ⟨⟨hText, _⟩, hChildren⟩ := hMade.leaf_of_kind (not_not_intro hKind)
      exact ⟨hText, hChildren⟩

end

end SourceSurvey.Syntax
