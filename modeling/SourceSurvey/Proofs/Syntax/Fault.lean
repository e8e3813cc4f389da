import SourceSurvey.Syntax.Tree

/-!
The first fault of a tree. Parts without a fault are passed over when it is looked for, and none is
missed by that: what is found is the first fault of all parts in document order, and the line that
is given for it is the one that it begins on in the text of the whole tree.
-/

namespace SourceSurvey.Syntax.Tree

variable {before : List Char} {t : Tree} {ts : List Tree} {p : Located}

/-! ### The first of all faults -/

mutual

/-- A tree has a fault if one of its parts is one. -/
theorem hasFault_eq_any : ∀ (before : List Char) (t : Tree),
    t.hasFault = (t.located before).any (·.tree.isFault)
  | _, leaf kind role gap text => by
      rw [hasFault, located, List.any_cons, List.any_nil, Bool.or_false]
      rfl
  | before, node kind role children => by
      rw [hasFault, located, List.any_cons, anyFault_eq_any before children]
      rfl

theorem anyFault_eq_any : ∀ (before : List Char) (ts : List Tree),
    anyFault ts = (locatedAll before ts).any (·.tree.isFault)
  | _, [] => rfl
  | before, t :: ts => by
      rw [anyFault, locatedAll, List.any_append, hasFault_eq_any before t,
        anyFault_eq_any (before ++ t.source) ts]

end

/-- Children without a fault have none to be found among their parts. -/
theorem find?_locatedAll_eq_none (h : anyFault ts = false) :
    (locatedAll before ts).find? (·.tree.isFault) = none := by
  rw [anyFault_eq_any before, List.any_eq_false] at h
  exact List.find?_eq_none.2 h

mutual

/-- What is found is the first fault in document order. -/
theorem firstFault?_eq_find? : ∀ (before : List Char) (t : Tree),
    t.firstFault? before = (t.located before).find? (·.tree.isFault)
  | before, leaf kind role gap text => by
      rw [firstFault?, located, List.find?_cons]
      cases (leaf kind role gap text).isFault <;> rfl
  | before, node kind role children => by
      rw [firstFault?, located, List.find?_cons]
      cases (node kind role children).isFault with
      | true => rfl
      | false =>
          cases hBelow : anyFault children with
          | true => exact firstFaultOf?_eq_find? before children
          | false => exact (find?_locatedAll_eq_none hBelow).symm

theorem firstFaultOf?_eq_find? : ∀ (before : List Char) (ts : List Tree),
    firstFaultOf? before ts = (locatedAll before ts).find? (·.tree.isFault)
  | _, [] => rfl
  | before, t :: ts => by
      rw [firstFaultOf?, locatedAll, List.find?_append, firstFault?_eq_find? before t,
        firstFaultOf?_eq_find? (before ++ t.source) ts]

end

/-- A tree with a fault has a first one. -/
theorem exists_find?_of_hasFault (h : t.hasFault = true) (before : List Char) :
    ∃ p, (t.located before).find? (·.tree.isFault) = some p := by
  rw [hasFault_eq_any before, List.any_eq_true] at h
  exact Option.isSome_iff_exists.1 (List.find?_isSome.2 h)

/-! ### Where a part begins -/

mutual

/-- A part stands in the text of the tree, behind the text before it. -/
theorem prefix_of_mem_located : ∀ (before : List Char) (t : Tree), p ∈ t.located before →
    p.before ++ p.tree.source <+: before ++ t.source
  | _, leaf kind role gap text, h => by
      rw [located] at h
      obtain rfl := List.mem_singleton.1 h
      exact List.prefix_rfl
  | before, node kind role children, h => by
      rw [located] at h
      rcases List.mem_cons.1 h with rfl | hBelow
      · exact List.prefix_rfl
      · exact prefix_of_mem_locatedAll before children hBelow

theorem prefix_of_mem_locatedAll : ∀ (before : List Char) (ts : List Tree),
    p ∈ locatedAll before ts → p.before ++ p.tree.source <+: before ++ sourceAll ts
  | _, [], h => nomatch h
  | before, t :: ts, h => by
      rw [sourceAll, ← List.append_assoc]
      rw [locatedAll] at h
      rcases List.mem_append.1 h with hFirst | hRest
      · exact (prefix_of_mem_located before t hFirst).trans (List.prefix_append _ _)
      · exact prefix_of_mem_locatedAll (before ++ t.source) ts hRest

end

/-- How many characters are before a part, the gap before it included. -/
def Located.start (p : Located) : Nat :=
  (p.before ++ p.tree.source.take p.tree.gapLength).length

/-- The text of a part stands where it begins. -/
theorem text_prefix_of_mem_located (h : p ∈ t.located []) :
    p.tree.text.toList <+: t.source.drop p.start := by
  obtain ⟨behind, hSource⟩ := prefix_of_mem_located [] t h
  rw [List.nil_append] at hSource
  have hParts : t.source = p.before ++ p.tree.source.take p.tree.gapLength ++
      (p.tree.source.drop p.tree.gapLength ++ behind) := by
    rw [← hSource, List.append_assoc, List.append_assoc, ← List.append_assoc (List.take _ _),
      List.take_append_drop]
  rw [text, String.toList_ofList, Located.start, hParts, List.drop_left]
  exact List.prefix_append _ _

/-- The line of a part counts the line feeds up to where it begins. -/
theorem line_of_mem_located (h : p ∈ t.located []) :
    p.line = (t.source.take p.start).count '\n' + 1 := by
  have hBefore : p.before ++ p.tree.source.take p.tree.gapLength <+: t.source := by
    have hWhole := prefix_of_mem_located [] t h
    rw [List.nil_append] at hWhole
    exact ((List.prefix_append_right_inj _).2 (List.take_prefix _ _)).trans hWhole
  have hTake : t.source.take p.start = p.before ++ p.tree.source.take p.tree.gapLength :=
    (List.prefix_iff_eq_take.1 hBefore).symm
  rw [hTake, Located.line, List.count_eq_length_filter]
  rfl

end SourceSurvey.Syntax.Tree
