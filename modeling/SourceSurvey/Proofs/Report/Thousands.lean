import SourceSurvey.Proofs.Report.Heading

/-!
Numbers with commas between groups of three digits. A number is shown in one way only, and the total
of lines is read back from the overview of a project.
-/

namespace SourceSurvey.Report

open Text (OneLine)

/-- The first group has one to three digits, and all others have three. -/
structure ByThrees (first : List Char) (later : List (List Char)) : Prop where
  nonempty : first ≠ []
  length_first : first.length ≤ 3
  length_later : ∀ group ∈ later, group.length = 3

/-- The text is the decimal text of the number with commas in it, none of them at an end, that part
the digits by threes. -/
structure ShownWithThousands (n : Nat) (text : String) : Prop where
  characters : ∀ c ∈ text.toList, c.isDigit = true ∨ c = ','
  begins : text.toList.head? ≠ some ','
  ends : text.toList.getLast? ≠ some ','
  digits : String.ofList (text.toList.filter (· ≠ ',')) = toString n
  groups : ∃ first later, text.toList.splitOn ',' = first :: later ∧ ByThrees first later

/-- The number that digits with commas between them stand for. -/
def ofThousands (text : String) : Nat := Nat.ofDigitChars 10 (text.toList.filter (· ≠ ',')) 0

/-- The number of lines that an overview tells of the project of this name. The name may be on
several lines, but the total is the fourth line behind it. -/
def lineTotal? (name text : String) : Option Nat := do
  let line ← (Path.split '\n' text)[(Path.split '\n' name).length + 3]?
  let total ← line.toList.dropPrefix? "- **Total Lines of Code**: ".toList
  return ofThousands (String.ofList total)

variable {first rest digits : List Char} {later : List (List Char)} {n : Nat} {text : String}

/-! ### Groups of digits -/

/-- Up to three digits before whole groups stay together, and a comma follows them if a group
does. -/
theorem grouped_append (hNonempty : first ≠ []) (hLength : first.length ≤ 3)
    (hRest : rest.length % 3 = 0) :
    grouped (first ++ rest) = first ++ if rest = [] then [] else ',' :: grouped rest := by
  induction first with
  | nil => exact absurd rfl hNonempty
  | cons d first ih =>
      by_cases hNil : first = []
      · subst hNil
        by_cases hEnd : rest = []
        · subst hEnd
          rfl
        · rw [List.singleton_append, grouped, if_pos ⟨hRest, hEnd⟩, if_neg hEnd]
          rfl
      · -- one or two digits are left of the first group, so this is no place for a comma
        have hPos : 0 < first.length := List.length_pos_iff.2 hNil
        rw [List.length_cons] at hLength
        have hInside : ¬((first ++ rest).length % 3 = 0 ∧ first ++ rest ≠ []) := by
          rw [List.length_append]
          omega
        rw [List.cons_append, grouped, if_neg hInside, ih hNil (by omega)]
        rfl

theorem length_flatten_mod_three (h : ∀ group ∈ later, group.length = 3) :
    later.flatten.length % 3 = 0 := by
  induction later with
  | nil => rfl
  | cons group later ih =>
      obtain ⟨hGroup, hLater⟩ := List.forall_mem_cons.1 h
      rw [List.flatten_cons, List.length_append, hGroup]
      have hRest := ih hLater
      omega

/-- By induction over the groups: digits are grouped from the end, where all groups are full. -/
theorem grouped_flatten (h : ByThrees first later) :
    grouped (first :: later).flatten = [','].intercalate (first :: later) := by
  induction later generalizing first with
  | nil =>
      rw [List.flatten_cons, List.flatten_nil, grouped_append h.nonempty h.length_first rfl,
        if_pos rfl, List.append_nil, List.intercalate_singleton]
  | cons group later ih =>
      obtain ⟨hGroup, hLater⟩ := List.forall_mem_cons.1 h.length_later
      have hNonempty : group ≠ [] := List.length_pos_iff.1 (by omega)
      have hNext : ByThrees group later := ⟨hNonempty, Nat.le_of_eq hGroup, hLater⟩
      have hEnd : (group :: later).flatten ≠ [] := by simp [hNonempty]
      rw [List.flatten_cons, grouped_append h.nonempty h.length_first
        (length_flatten_mod_three h.length_later), if_neg hEnd, ih hNext,
        List.intercalate_cons_cons, List.append_assoc, List.singleton_append]

/-- Any digits fall into such groups: one more before a full group begins a group of its own, and
otherwise it joins the first. -/
theorem exists_byThrees (h : digits ≠ []) :
    ∃ first later, ByThrees first later ∧ (first :: later).flatten = digits := by
  induction digits with
  | nil => exact absurd rfl h
  | cons d rest ih =>
      by_cases hNil : rest = []
      · subst hNil
        exact ⟨[d], [], ⟨by simp, by simp, by simp⟩, rfl⟩
      · obtain ⟨first, later, hThrees, rfl⟩ := ih hNil
        by_cases hFull : first.length = 3
        · have hLater : ∀ group ∈ first :: later, group.length = 3 :=
            List.forall_mem_cons.2 ⟨hFull, hThrees.length_later⟩
          exact ⟨[d], first :: later, ⟨by simp, by simp, hLater⟩, rfl⟩
        · have hLength : (d :: first).length ≤ 3 :=
            Nat.lt_of_le_of_ne hThrees.length_first hFull
          exact ⟨d :: first, later, ⟨by simp, hLength, hThrees.length_later⟩, rfl⟩

/-! ### The text of a number -/

theorem filter_ne_eq_flatten_splitOn (separator : Char) (cs : List Char) :
    cs.filter (· ≠ separator) = (cs.splitOn separator).flatten := by
  induction cs with
  | nil => rfl
  | cons c cs ih =>
      obtain ⟨piece, pieces, hPieces⟩ :=
        List.exists_cons_of_ne_nil (List.splitOn_ne_nil separator cs)
      rw [hPieces] at ih
      rw [List.splitOn_cons_eq_if_modifyHead, hPieces]
      by_cases hC : c = separator
      · simpa [hC] using ih
      · simpa [hC] using ih

/-- No comma stands before the first digit. -/
theorem head?_grouped (digits : List Char) : (grouped digits).head? = digits.head? := by
  cases digits <;> rfl

/-- No comma stands behind the last digit. -/
theorem getLast?_grouped (digits : List Char) : (grouped digits).getLast? = digits.getLast? := by
  induction digits with
  | nil => rfl
  | cons d rest ih =>
      cases rest with
      | nil => rfl
      | cons e rest =>
          rw [List.getLast?_cons_cons, ← ih, grouped]
          split
          · rw [grouped, List.getLast?_cons_cons, List.getLast?_cons_cons]
          · rw [grouped, List.getLast?_cons_cons]

theorem shownWithThousands (n : Nat) : ShownWithThousands n (withThousands n) := by
  have hChars : (withThousands n).toList = grouped (Nat.toDigits 10 n) := String.toList_ofList
  have hComma : ',' ∉ Nat.toDigits 10 n :=
    fun hMem => absurd (Text.isDigit_of_mem_decimal hMem) (by decide)
  have hNonempty : Nat.toDigits 10 n ≠ [] := Nat.toDigits_ne_nil
  obtain ⟨first, later, hThrees, hDigits⟩ := exists_byThrees hNonempty
  have hGroups : ∀ group ∈ first :: later, ',' ∉ group := by
    intro group hGroup hMem
    rw [← hDigits] at hComma
    exact hComma (List.mem_flatten_of_mem hGroup hMem)
  have hSplit : (withThousands n).toList.splitOn ',' = first :: later := by
    rw [hChars, ← hDigits, grouped_flatten hThrees,
      List.splitOn_intercalate ',' hGroups (List.cons_ne_nil _ _)]
  exact {
    characters := by
      intro c hC
      rw [hChars] at hC
      exact isDigit_or_comma_of_mem_grouped (fun _ => Text.isDigit_of_mem_decimal) hC
    begins := by
      rw [hChars, head?_grouped]
      exact fun hHead => hComma (List.mem_of_head? hHead)
    ends := by
      rw [hChars, getLast?_grouped]
      exact fun hLast => hComma (List.mem_of_getLast? hLast)
    digits := by
      rw [filter_ne_eq_flatten_splitOn, hSplit, hDigits, Nat.toString_eq_repr,
        Nat.repr_eq_ofList_toDigits]
    groups := ⟨first, later, hSplit, hThrees⟩ }

/-- Without its commas a number is its decimal digits. -/
theorem ShownWithThousands.filter_eq (h : ShownWithThousands n text) :
    text.toList.filter (· ≠ ',') = Nat.toDigits 10 n := by
  have hDigits := h.digits
  rwa [Nat.toString_eq_repr, Nat.repr_eq_ofList_toDigits, String.ofList_inj] at hDigits

/-- There is only one way to group the digits of a number. -/
theorem ShownWithThousands.eq_withThousands (h : ShownWithThousands n text) :
    text = withThousands n := by
  obtain ⟨first, later, hSplit, hThrees⟩ := h.groups
  have hDigits : (first :: later).flatten = Nat.toDigits 10 n := by
    rw [← hSplit, ← filter_ne_eq_flatten_splitOn, h.filter_eq]
  rw [← String.toList_inj, withThousands, String.toList_ofList, ← hDigits, grouped_flatten hThrees,
    ← hSplit, List.intercalate_splitOn]

theorem ShownWithThousands.ofThousands_eq (h : ShownWithThousands n text) :
    ofThousands text = n := by
  rw [ofThousands, h.filter_eq, Nat.ofDigitChars_ten_toDigits]

theorem leftInverse_ofThousands : Function.LeftInverse ofThousands withThousands :=
  fun n => (shownWithThousands n).ofThousands_eq

/-! ### The total in an overview -/

/-- The statistics follow the title line by line, since no number is on more than one. -/
theorem exists_split_overview (records : List Record) (s : Summary) (threshold : Nat) :
    ∃ below, Path.split '\n' (overview records s threshold) =
      Path.split '\n' ("# Project Analysis: " ++ s.name) ++
        "" :: "## Project Statistics" :: ("- **Total Files**: " ++ toString s.fileCount) ::
          ("- **Total Lines of Code**: " ++ withThousands s.totalLines) :: below := by
  have hEmpty : OneLine "" := by simp [OneLine]
  have hHeading : OneLine "## Project Statistics" := by simp [OneLine]
  have hFiles : OneLine ("- **Total Files**: " ++ toString s.fileCount) :=
    Text.oneLine_append.2 ⟨by simp [OneLine], Text.oneLine_toString _⟩
  have hTotal : OneLine ("- **Total Lines of Code**: " ++ withThousands s.totalLines) :=
    Text.oneLine_append.2 ⟨by simp [OneLine], oneLine_withThousands _⟩
  obtain ⟨below, hOverview⟩ : ∃ below, overview records s threshold = ofLines
      (("# Project Analysis: " ++ s.name) :: "" :: "## Project Statistics" ::
        ("- **Total Files**: " ++ toString s.fileCount) ::
        ("- **Total Lines of Code**: " ++ withThousands s.totalLines) :: below) := ⟨_, rfl⟩
  refine ⟨Path.split '\n' (ofLines below), ?_⟩
  simp only [hOverview, split_ofLines_cons, hEmpty.split, hHeading.split, hFiles.split,
    hTotal.split, List.singleton_append]

/-- The number of lines can be read from an overview, whatever the name of the project and the other
texts are. -/
theorem lineTotal?_overview (records : List Record) (s : Summary) (threshold : Nat) :
    lineTotal? s.name (overview records s threshold) = some s.totalLines := by
  obtain ⟨below, hSplit⟩ := exists_split_overview records s threshold
  have hTitle : OneLine "# Project Analysis: " := by simp [OneLine]
  have hLine : (Path.split '\n' (overview records s threshold))[
      (Path.split '\n' s.name).length + 3]? =
      some ("- **Total Lines of Code**: " ++ withThousands s.totalLines) := by
    rw [hSplit, ← hTitle.length_split_append, List.getElem?_append_right (Nat.le_add_right _ _),
      Nat.add_sub_cancel_left]
    rfl
  simp only [lineTotal?, hLine, Option.bind_eq_bind, Option.bind_some, String.toList_append,
    List.dropPrefix?_append_of_beq _ BEq.rfl, String.ofList_toList, leftInverse_ofThousands _,
    Option.pure_def]

/-- A text shows a number with thousands exactly if it is the printed one, and the number can be
told from it. The total of lines is read back from every overview, whatever the name of the project
and the other lines are. -/
theorem withThousands_readBack :
    (∀ n text, ShownWithThousands n text ↔ text = withThousands n) ∧
    Function.LeftInverse ofThousands withThousands ∧ Function.Injective withThousands ∧
    ∀ (records : List Record) (s : Summary) (threshold : Nat),
      lineTotal? s.name (overview records s threshold) = some s.totalLines := by
  refine ⟨fun n text => ⟨fun h => h.eq_withThousands, ?_⟩, leftInverse_ofThousands,
    leftInverse_ofThousands.injective, lineTotal?_overview⟩
  intro hText
  rw [hText]
  exact shownWithThousands n

/-- Six digits fill two groups, so the next power of ten begins a third. -/
example : withThousands 999999 = "999,999" ∧ withThousands 1000000 = "1,000,000" := by
  decide +kernel

end SourceSurvey.Report
