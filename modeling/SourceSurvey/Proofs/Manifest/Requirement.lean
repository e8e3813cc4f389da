import SourceSurvey.Manifest
import SourceSurvey.Proofs.Text.Layout

/-!
Lists of requirements as they are written: a requirement on a line, a name and perhaps a version
behind a comparison, between lines that require nothing. A name has no character that a comparison
begins with, so it is found whatever stands behind the comparison; and whatever a text is, what is
found in it are names before a comparison.
-/

namespace SourceSurvey.Manifest

open Text

variable {xs cs line : List Char} {c : Char}

/-! ### What is before a comparison -/

/-- A character that a comparison begins with. -/
def isMark (c : Char) : Bool := c = '=' || c = '<' || c = '>'

/-- Every comparison begins with a mark, so that texts without marks have none. -/
theorem exists_mark_of_mem_comparisons {op : List Char} (h : op ∈ comparisons) :
    ∃ first rest, op = first :: rest ∧ isMark first = true := by
  have hAll : ∀ op ∈ comparisons, op.head?.any isMark = true := by decide
  have hMark := hAll op h
  cases op with
  | nil => cases hMark
  | cons first rest => exact ⟨first, rest, rfl, hMark⟩

theorem isMark_of_comparison (h : comparisons.any (·.isPrefixOf (c :: cs)) = true) :
    isMark c = true := by
  obtain ⟨op, hOp, hPrefix⟩ := List.any_eq_true.1 h
  obtain ⟨first, rest, rfl, hMark⟩ := exists_mark_of_mem_comparisons hOp
  obtain ⟨rfl, _⟩ := List.cons_prefix_cons.1 (List.isPrefixOf_iff_prefix.1 hPrefix)
  exact hMark

/-- A comparison is looked for behind all characters that are no marks. -/
theorem beforeComparison_append (h : ∀ c ∈ xs, isMark c = false) (cs : List Char) :
    beforeComparison (xs ++ cs) = xs ++ beforeComparison cs := by
  induction xs with
  | nil => rfl
  | cons x xs ih =>
      obtain ⟨hX, hRest⟩ := List.forall_mem_cons.1 h
      have hNot : ¬comparisons.any (·.isPrefixOf (x :: (xs ++ cs))) = true := by
        intro hFound
        rw [isMark_of_comparison hFound] at hX
        cases hX
      rw [List.cons_append, beforeComparison, if_neg hNot, ih hRest, List.cons_append]

theorem beforeComparison_comparison {op : List Char} (h : op ∈ comparisons) (cs : List Char) :
    beforeComparison (op ++ cs) = [] := by
  cases hLine : op ++ cs with
  | nil => rfl
  | cons c rest =>
      have hFound : comparisons.any (·.isPrefixOf (c :: rest)) = true := by
        rw [← hLine]
        exact List.any_eq_true.2 ⟨op, h, List.isPrefixOf_iff_prefix.2 (List.prefix_append op cs)⟩
      rw [beforeComparison, if_pos hFound]

theorem prefix_beforeComparison (cs : List Char) : beforeComparison cs <+: cs := by
  induction cs with
  | nil => exact List.prefix_rfl
  | cons c cs ih =>
      rw [beforeComparison]
      split
      · exact List.nil_prefix
      · exact List.cons_prefix_cons.2 ⟨rfl, ih⟩

/-- There is no comparison before the first one. -/
theorem not_infix_beforeComparison {op : List Char} (h : op ∈ comparisons) (cs : List Char) :
    ¬op <:+: beforeComparison cs := by
  have hSome : op ≠ [] := by
    obtain ⟨first, rest, rfl, _⟩ := exists_mark_of_mem_comparisons h
    exact List.cons_ne_nil first rest
  induction cs with
  | nil => exact fun hInfix => hSome (List.infix_nil.1 hInfix)
  | cons c cs ih =>
      rw [beforeComparison]
      split
      · exact fun hInfix => hSome (List.infix_nil.1 hInfix)
      · rename_i hNot
        rw [List.infix_cons_iff, not_or]
        refine ⟨fun hPrefix => hNot ?_, ih⟩
        have hHere := hPrefix.trans (List.cons_prefix_cons.2 ⟨rfl, prefix_beforeComparison cs⟩)
        exact List.any_eq_true.2 ⟨op, h, List.isPrefixOf_iff_prefix.2 hHere⟩

/-! ### The requirement on a line -/

/-- What a trimmed line requires. -/
def requirement? (line : List Char) : Option Dependency :=
  if isNoRequirement line then none
  else
    let name := trimBoth isBlank (beforeComparison line)
    if name.isEmpty then none else some (String.ofList name, String.ofList line)

/-- Requirements are read line by line. -/
theorem ofRequirements_eq (content : String) : ofRequirements content =
    ((lines content.toList).map (trimBoth isBlank)).filterMap requirement? := by
  rw [ofRequirements, List.filterMap_filter]
  apply List.filterMap_congr
  intro line _
  rw [requirement?]
  cases isNoRequirement line <;> rfl

/-- What is known of any dependency that is found. -/
structure Named (d : Dependency) : Prop where
  ne_empty : d.1 ≠ ""
  trimmed : trim d.1 = d.1
  no_comparison : ∀ op ∈ comparisons, ¬op <:+: d.1.toList
  begins : d.1.toList <+: d.2.toList

/-- Whatever a line says, the dependency that is read from it has a proper name. -/
theorem named_of_requirement? {d : Dependency} (hTrimmed : trimBoth isBlank line = line)
    (h : requirement? line = some d) : Named d := by
  obtain ⟨blanks, _, hCut⟩ :=
    exists_eq_trimBoth_append_of_prefix hTrimmed (prefix_beforeComparison line)
  have hPrefix : trimBoth isBlank (beforeComparison line) <+: beforeComparison line :=
    ⟨blanks, hCut.symm⟩
  simp only [requirement?] at h
  split at h
  · cases h
  · split at h
    · cases h
    · rename_i hName
      cases h
      rw [List.isEmpty_iff] at hName
      constructor
      · simpa [String.ofList_eq_empty_iff] using hName
      · rw [trim, String.toList_ofList, trimBoth_trimBoth]
      · intro op hOp hInfix
        rw [String.toList_ofList] at hInfix
        exact not_infix_beforeComparison hOp line (hInfix.trans hPrefix.isInfix)
      · rw [String.toList_ofList, String.toList_ofList]
        exact hPrefix.trans (prefix_beforeComparison line)

theorem named_of_mem_ofRequirements {content : String} {d : Dependency}
    (h : d ∈ ofRequirements content) : Named d := by
  rw [ofRequirements_eq] at h
  obtain ⟨line, hLine, hRequired⟩ := List.mem_filterMap.1 h
  obtain ⟨whole, _, rfl⟩ := List.mem_map.1 hLine
  exact named_of_requirement? (trimBoth_trimBoth isBlank whole) hRequired

/-! ### Lists as they are written -/

namespace RequirementList

/-- A letter or a digit; beyond ASCII any character but a blank. -/
def isNameStart (c : Char) : Bool := if c.toNat < 128 then c.isAlphanum else !isBlank c

def isNamePart (c : Char) : Bool := isNameStart c || c = '.' || c = '_' || c = '-'

/-- A character that neither begins a comparison nor ends a line. -/
def isPlain (c : Char) : Bool := !isMark c && c ≠ '\n'

/-- The name of a package. In brackets behind it the names of its extras may stand, or whatever else
has no comparison. -/
structure Name where
  first : Char
  rest : List Char
  extras : Option (List Char)
  start : isNameStart first = true
  parts : ∀ c ∈ rest, isNamePart c = true
  within : ∀ inner ∈ extras, ∀ c ∈ inner, isPlain c = true

namespace Name

/-- What is in brackets, with the brackets. -/
def bracket (n : Name) : List Char := (n.extras.map fun inner => '[' :: inner ++ [']']).getD []

def chars (n : Name) : List Char := n.first :: n.rest ++ n.bracket

end Name

/-- A comparison with a version, or any other text behind the comparison. -/
structure Constraint where
  gap : Margin
  comparison : List Char
  known : comparison ∈ comparisons
  behind : List Char
  inLine : '\n' ∉ behind

def Constraint.text (c : Constraint) : List Char := c.gap.chars ++ c.comparison ++ c.behind

inductive Line where
  | requirement (before : Margin) (name : Name) (constraint : Option Constraint) (behind : Margin)
  | blank (margin : Margin)
  /-- A comment or an option. -/
  | marked (before : Margin) (mark : Char) (hMark : mark = '#' ∨ mark = '-') (rest : List Char)
    (inLine : '\n' ∉ rest)

namespace Line

def text : Line → List Char
  | requirement before name constraint behind =>
    before.chars ++ (name.chars ++ (constraint.map Constraint.text).getD []) ++ behind.chars
  | blank margin => margin.chars
  | marked before mark _ rest _ => before.chars ++ (mark :: rest)

def name? : Line → Option Name
  | requirement _ name _ _ => some name
  | _ => none

/-- The name on a line, and the whole trimmed line. -/
def dependency? (l : Line) : Option Dependency :=
  l.name?.map fun name => (String.ofList name.chars, String.ofList (trimBoth isBlank l.text))

end Line

end RequirementList

/-- The lines of a list. A line feed at the end has a blank line behind it. -/
abbrev RequirementList := List RequirementList.Line

namespace RequirementList

def text (l : RequirementList) : String := String.ofList (['\n'].intercalate (l.map Line.text))

/-! ### Characters -/

/-- A name begins with what no blank, comment or option begins with. -/
theorem of_isNameStart (h : isNameStart c = true) :
    isBlank c = false ∧ c ≠ '#' ∧ c ≠ '-' ∧ isPlain c = true := by
  have hAscii : ∀ n < 128, isNameStart (Char.ofNat n) = true →
      isBlank (Char.ofNat n) = false ∧ Char.ofNat n ≠ '#' ∧ Char.ofNat n ≠ '-' ∧
        isPlain (Char.ofNat n) = true := by
    decide
  by_cases hC : c.toNat < 128
  · have hSame := hAscii c.toNat hC
    rw [Char.ofNat_toNat] at hSame
    exact hSame h
  · have hOther : ∀ d : Char, d.toNat < 128 → c ≠ d := fun d hD hSame => hC (hSame ▸ hD)
    rw [isNameStart, if_neg hC, Bool.not_eq_true'] at h
    refine ⟨h, hOther '#' (by decide), hOther '-' (by decide), ?_⟩
    simp [isPlain, isMark, hOther '=' (by decide), hOther '<' (by decide), hOther '>' (by decide),
      hOther '\n' (by decide)]

theorem of_isNamePart (h : isNamePart c = true) : isBlank c = false ∧ isPlain c = true := by
  simp only [isNamePart, Bool.or_eq_true, decide_eq_true_eq] at h
  rcases h with ((hStart | rfl) | rfl) | rfl
  · obtain ⟨hBlank, _, _, hPlain⟩ := of_isNameStart hStart
    exact ⟨hBlank, hPlain⟩
  · decide
  · decide
  · decide

theorem isMark_of_isBlank (h : isBlank c = true) : isMark c = false := by
  rw [isMark]
  simp only [Bool.or_eq_false_iff, decide_eq_false_iff_not]
  refine ⟨⟨?_, ?_⟩, ?_⟩ <;> rintro rfl <;> exact absurd h (by decide)

namespace Name

variable (n : Name)

theorem plain_bracket : ∀ c ∈ n.bracket, isPlain c = true := by
  rw [bracket]
  cases hExtras : n.extras with
  | none => exact fun c hC => nomatch hC
  | some inner =>
      rw [Option.map_some, Option.getD_some, List.cons_append, List.forall_mem_cons,
        List.forall_mem_append]
      exact ⟨by decide, n.within inner hExtras, List.forall_mem_singleton.2 (by decide)⟩

/-- A name has no marks in it, those in its bracket included. -/
theorem plain : ∀ c ∈ n.chars, isPlain c = true := by
  rw [chars, List.cons_append, List.forall_mem_cons, List.forall_mem_append]
  exact ⟨(of_isNameStart n.start).2.2.2, fun c hC => (of_isNamePart (n.parts c hC)).2,
    n.plain_bracket⟩

theorem chars_ne_nil : n.chars ≠ [] := List.cons_ne_nil _ _

theorem not_blank_of_head? : ∀ c ∈ n.chars.head?, isBlank c = false := by
  intro c hC
  cases hC
  exact (of_isNameStart n.start).1

theorem not_blank_of_getLast? : ∀ c ∈ n.chars.getLast?, isBlank c = false := by
  have hWord : ∀ c ∈ n.first :: n.rest, isBlank c = false :=
    List.forall_mem_cons.2
      ⟨(of_isNameStart n.start).1, fun c hC => (of_isNamePart (n.parts c hC)).1⟩
  intro c hC
  rw [chars, bracket] at hC
  cases hExtras : n.extras with
  | none =>
      rw [hExtras, Option.map_none, Option.getD_none, List.append_nil] at hC
      exact hWord c (List.mem_of_mem_getLast? hC)
  | some inner =>
      rw [hExtras, Option.map_some, Option.getD_some, ← List.append_assoc,
        List.getLast?_concat] at hC
      cases hC
      decide

theorem trimBoth_chars : trimBoth isBlank n.chars = n.chars :=
  trimBoth_eq_self n.not_blank_of_head? n.not_blank_of_getLast?

/-- The name of a requirement ends where the first comparison begins, not before. -/
theorem beforeComparison_chars_append (cs : List Char) :
    beforeComparison (n.chars ++ cs) = n.chars ++ beforeComparison cs :=
  beforeComparison_append (fun c hC => by
    have hPlain := n.plain c hC
    simp only [isPlain, Bool.and_eq_true, Bool.not_eq_true'] at hPlain
    exact hPlain.1) cs

end Name

/-! ### Reading a line -/

/-- A constraint is kept up to the blanks at its end, which are behind the comparison. -/
theorem exists_trimBoth_constraint (n : Name) (constraint : Option Constraint) :
    ∃ kept, trimBoth isBlank (n.chars ++ (constraint.map Constraint.text).getD []) =
        n.chars ++ kept ∧ ∀ c ∈ beforeComparison kept, isBlank c = true := by
  cases constraint with
  | none =>
      refine ⟨[], ?_, fun c hC => nomatch hC⟩
      rw [Option.map_none, Option.getD_none, List.append_nil, n.trimBoth_chars]
  | some c =>
      have hAll : ∀ op ∈ comparisons, op.getLast? = some '=' := by decide
      have hEnd := hAll c.comparison c.known
      have hSome : c.comparison ≠ [] := by
        intro hNil
        rw [hNil] at hEnd
        cases hEnd
      obtain ⟨kept, _, _, _, hTrim⟩ := @exists_trimBoth_append isBlank
        (n.chars ++ c.gap.chars ++ c.comparison) (by simp [n.chars_ne_nil])
        (by
          rw [List.append_assoc, List.head?_append_of_ne_nil _ n.chars_ne_nil]
          exact n.not_blank_of_head?)
        (by
          rw [List.getLast?_append_of_ne_nil _ hSome, hEnd]
          exact fun d hD => Option.some.inj hD ▸ rfl)
        c.behind
      refine ⟨c.gap.chars ++ (c.comparison ++ kept), ?_, ?_⟩
      · simpa only [Option.map_some, Option.getD_some, Constraint.text, List.append_assoc]
          using hTrim
      · have hGap : ∀ d ∈ c.gap.chars, isMark d = false :=
          fun d hD => isMark_of_isBlank (c.gap.blank d hD)
        rw [beforeComparison_append hGap, beforeComparison_comparison c.known, List.append_nil]
        exact c.gap.blank

/-- The name is found on its line, and nothing on the other lines. -/
theorem requirement?_text (l : Line) : requirement? (trimBoth isBlank l.text) = l.dependency? := by
  cases l with
  | requirement before n constraint behind =>
      obtain ⟨kept, hTrim, hBlank⟩ := exists_trimBoth_constraint n constraint
      have hLine : trimBoth isBlank (Line.requirement before n constraint behind).text =
          n.chars ++ kept := by
        rw [Line.text, trimBoth_append_right behind.blank, trimBoth_append_left before.blank, hTrim]
      have hSays : isNoRequirement (n.chars ++ kept) = false := by
        obtain ⟨_, hComment, hOption, _⟩ := of_isNameStart n.start
        simp [isNoRequirement, Name.chars, hComment, hOption]
      have hName : trimBoth isBlank (beforeComparison (n.chars ++ kept)) = n.chars := by
        rw [n.beforeComparison_chars_append, trimBoth_append_right hBlank, n.trimBoth_chars]
      rw [Line.dependency?, hLine, requirement?, if_neg (by simp [hSays]), hName]
      rfl
  | blank margin =>
      rw [Line.text, trimBoth_eq_nil margin.blank]
      rfl
  | marked before mark hMark rest _ =>
      have hFirst : isBlank mark = false := by rcases hMark with rfl | rfl <;> decide
      obtain ⟨kept, _, _, _, hTrim⟩ := @exists_trimBoth_append isBlank [mark]
        (List.cons_ne_nil _ _) (by simpa using hFirst) (by simpa using hFirst) rest
      have hSilent : isNoRequirement (mark :: kept) = true := by
        simpa [isNoRequirement] using hMark
      rw [Line.text, trimBoth_append_left before.blank, ← List.singleton_append, hTrim,
        List.singleton_append, requirement?, if_pos hSilent]
      rfl

theorem Line.inLine (l : Line) : '\n' ∉ l.text := by
  cases l with
  | requirement before n constraint behind =>
      have hName : '\n' ∉ n.chars := fun hMem => absurd (n.plain _ hMem) (by decide)
      have hConstraint : '\n' ∉ (constraint.map Constraint.text).getD [] := by
        cases constraint with
        | none => exact List.not_mem_nil
        | some c =>
            have hComparison : ∀ op ∈ comparisons, '\n' ∉ op := by decide
            simp only [Option.map_some, Option.getD_some, Constraint.text, List.mem_append, not_or]
            exact ⟨⟨c.gap.inLine, hComparison _ c.known⟩, c.inLine⟩
      simp only [Line.text, List.mem_append, not_or]
      exact ⟨⟨before.inLine, hName, hConstraint⟩, behind.inLine⟩
  | blank margin => exact margin.inLine
  | marked before mark hMark rest inLine =>
      rw [Line.text, List.mem_append, List.mem_cons, not_or, not_or]
      refine ⟨before.inLine, ?_, inLine⟩
      rcases hMark with rfl | rfl <;> decide

/-- A list of requirements is read as the dependencies of its lines, in their order. -/
theorem ofRequirements_text_eq (l : RequirementList) :
    ofRequirements l.text = l.filterMap Line.dependency? := by
  have hInLine : ∀ line ∈ l.map Line.text, '\n' ∉ line :=
    List.forall_mem_map.2 fun line _ => line.inLine
  have hRead : ((l.map Line.text).map (trimBoth isBlank)).filterMap requirement? =
      l.filterMap Line.dependency? := by
    rw [List.map_map, List.filterMap_map]
    exact List.filterMap_congr fun line _ => requirement?_text line
  rw [← hRead, ofRequirements_eq, text, String.toList_ofList]
  rcases map_trimBoth_lines_intercalate hInLine with hSame | hMore
  · rw [hSame]
  · rw [hMore, List.filterMap_append]
    exact (List.append_nil _).symm

/-- Exactly the requirements of a list are found, in order, each with its name and its whole line,
in whatever layout the list is written; and whatever is found in a text is named. -/
theorem ofRequirements_layout :
    (∀ l : RequirementList, ofRequirements l.text = l.filterMap Line.dependency?) ∧
    ∀ content : String, ∀ d ∈ ofRequirements content, Named d :=
  ⟨ofRequirements_text_eq, fun _ _ hD => named_of_mem_ofRequirements hD⟩

/-- Two requirements, one with further comparisons in its version, between other lines. -/
def pinned : RequirementList :=
  let returned := Margin.ofChars [' ', '\r'] rfl
  [.marked .space '#' (by decide) "a==1".toList (by decide), .blank returned,
    .requirement .space
      ⟨'F', ['-', '2'], some "x, y".toList, by decide, List.all_eq_true.1 rfl,
        fun _ hInner => Option.some.inj hInner ▸ List.all_eq_true.1 rfl⟩
      (some ⟨.space, ">=".toList, by decide, "1,<=2; é == 'z'".toList, by decide⟩) returned,
    .marked .nothing '-' (by decide) "r dev.txt".toList (by decide),
    .requirement .nothing ⟨'é', [], none, by decide, List.forall_mem_nil _, nofun⟩ none
      .space,
    .blank .nothing]

theorem ofRequirements_layout_pinned :
    pinned.text = " #a==1\n \r\n F-2[x, y] >=1,<=2; é == 'z' \r\n-r dev.txt\né \n" ∧
    ofRequirements pinned.text =
      [("F-2[x, y]", "F-2[x, y] >=1,<=2; é == 'z'"), ("é", "é")] ∧
    ("é", "é") ∈ ofRequirements pinned.text ∧ Named ("é", "é") := by
  have hFound : ofRequirements pinned.text =
      [("F-2[x, y]", "F-2[x, y] >=1,<=2; é == 'z'"), ("é", "é")] := by
    rw [ofRequirements_layout.1]
    decide +kernel
  have hMem : ("é", "é") ∈ ofRequirements pinned.text := by
    rw [hFound]
    decide
  exact ⟨by decide +kernel, hFound, hMem, ofRequirements_layout.2 _ _ hMem⟩

end RequirementList

end SourceSurvey.Manifest
