import SourceSurvey.Proofs.Path
import SourceSurvey.Proofs.Text.Numeral

/-!
Lines that begin with a number sign. In a text that is put together from labels and other texts such
a line begins with a line of one of the parts.
-/

namespace SourceSurvey.Text

def OneLine (text : String) : Prop := '\n' ∉ text.toList

/-- The text up to its first line break. -/
def firstLine (text : String) : String := (Path.split '\n' text).headD ""

def StartsMarked (text : String) : Prop := text.toList.head? = some '#'

/-- The line begins with the piece, and the piece with a number sign. -/
def Leads (piece line : String) : Prop := StartsMarked piece ∧ piece.toList <+: line.toList

/-- A line of the text leads the line. -/
def Opens (line text : String) : Prop := ∃ piece ∈ Path.split '\n' text, Leads piece line

/-- A line of the text but the first leads the line. -/
def OpensBelow (line text : String) : Prop :=
  ∃ piece ∈ (Path.split '\n' text).tail, Leads piece line

/-- The characters of a text on one line, not empty and with no number sign at its beginning. They
stand for the text in what follows, since it takes long to take apart a text in a proof. -/
def isLabel (cs : List Char) : Bool := cs.head?.any (· ≠ '#') && !cs.contains '\n'

variable {line a b text : String} {cs : List Char}

/-! ### Single lines -/

@[simp]
theorem oneLine_append : OneLine (a ++ b) ↔ OneLine a ∧ OneLine b := by
  simp [OneLine]

theorem oneLine_ofList (h : cs.contains '\n' = false) : OneLine (String.ofList cs) := by
  simpa [OneLine] using h

theorem oneLine_of_isDigit (h : ∀ c ∈ text.toList, c.isDigit = true) : OneLine text :=
  fun hBreak => absurd (h '\n' hBreak) (by decide)

theorem oneLine_toString (n : Nat) : OneLine (toString n) := by
  apply oneLine_of_isDigit
  intro c hC
  rw [Nat.toString_eq_repr, Nat.repr_eq_ofList_toDigits, String.toList_ofList] at hC
  exact isDigit_of_mem_decimal hC

/-- A text on one line is that line. -/
theorem OneLine.split (h : OneLine text) : Path.split '\n' text = [text] := by
  rw [Path.split, List.splitOn_eq_singleton h, List.map_singleton, String.ofList_toList]

/-- A text on one line has nothing below it. -/
theorem OneLine.not_opensBelow (h : OneLine text) : ¬OpensBelow line text := by
  rw [OpensBelow, h.split]
  simp

/-- A text on one line comes before the first line of another. -/
theorem OneLine.split_append (h : OneLine a) :
    Path.split '\n' (a ++ b) = (a ++ firstLine b) :: (Path.split '\n' b).tail := by
  obtain ⟨before, last, first, behind, hA, hB, hBoth⟩ := Path.split_append '\n' a b
  rw [h.split] at hA
  have hNil : before = [] := by simpa using (congrArg List.length hA).symm
  subst hNil
  cases hA
  rw [hBoth, firstLine, hB]
  rfl

theorem OneLine.length_split_append (h : OneLine a) :
    (Path.split '\n' (a ++ b)).length = (Path.split '\n' b).length := by
  have hPos : 0 < (Path.split '\n' b).length := by
    simp [Path.split, List.length_pos_iff]
  rw [h.split_append, List.length_cons, List.length_tail]
  omega

/-- The first line of a text goes on behind what stands in front of it. -/
theorem OneLine.firstLine_append (h : OneLine a) : firstLine (a ++ b) = a ++ firstLine b := by
  rw [firstLine, h.split_append]
  rfl

theorem OneLine.not_opensBelow_append (h : OneLine a) (hB : ¬OpensBelow line b) :
    ¬OpensBelow line (a ++ b) := by
  rwa [OpensBelow, h.split_append]

/-! ### Marked lines in texts put together -/

/-- A line below the first is still one that the text opens. -/
theorem Opens.of_opensBelow (h : OpensBelow line text) : Opens line text := by
  obtain ⟨piece, hPiece, hLeads⟩ := h
  exact ⟨piece, List.mem_of_mem_tail hPiece, hLeads⟩

theorem not_opensBelow_of_not_opens (h : ¬Opens line text) : ¬OpensBelow line text :=
  fun hBelow => h (Opens.of_opensBelow hBelow)

/-- A line is the first, or there is one below the first. -/
theorem eq_firstLine_or_opensBelow (hLine : line ∈ Path.split '\n' text)
    (hMarked : StartsMarked line) : line = firstLine text ∨ OpensBelow line text := by
  rw [firstLine, OpensBelow]
  cases hSplit : Path.split '\n' text with
  | nil =>
      rw [hSplit] at hLine
      cases hLine
  | cons first below =>
      rw [hSplit] at hLine
      rcases List.mem_cons.1 hLine with hFirst | hBelow
      · exact .inl hFirst
      · exact .inr ⟨line, hBelow, hMarked, List.prefix_rfl⟩

theorem opens_of_mem_split (hLine : line ∈ Path.split '\n' text) (hMarked : StartsMarked line) :
    Opens line text :=
  ⟨line, hLine, hMarked, List.prefix_rfl⟩

/-- Where two texts meet, a line is led by the end of the first or the beginning of the second. -/
theorem Leads.of_append (h : Leads (a ++ b) line) : Leads a line ∨ Leads b line := by
  obtain ⟨hMarked, hPrefix⟩ := h
  rw [StartsMarked, String.toList_append] at hMarked
  rw [String.toList_append] at hPrefix
  cases hChars : a.toList with
  | nil =>
      rw [hChars, List.nil_append] at hMarked hPrefix
      exact .inr ⟨hMarked, hPrefix⟩
  | cons c rest =>
      rw [hChars] at hMarked
      exact .inl ⟨by rw [StartsMarked, hChars]; exact hMarked,
        (List.prefix_append _ _).trans hPrefix⟩

/-- Where two texts meet in a line, this line begins as the first of them ends. -/
theorem exists_leads_of_append {before behind : List String} {last first : String}
    (h : ∃ piece ∈ before ++ (last ++ first) :: behind, Leads piece line) :
    (∃ piece ∈ before ++ [last], Leads piece line) ∨
      ∃ piece ∈ first :: behind, Leads piece line := by
  obtain ⟨piece, hPiece, hLeads⟩ := h
  rw [List.mem_append, List.mem_cons] at hPiece
  rcases hPiece with hBefore | rfl | hBehind
  · exact .inl ⟨piece, List.mem_append_left _ hBefore, hLeads⟩
  · rcases hLeads.of_append with hLast | hFirst
    · exact .inl ⟨last, by simp, hLast⟩
    · exact .inr ⟨first, List.mem_cons_self, hFirst⟩
  · exact .inr ⟨piece, List.mem_cons_of_mem _ hBehind, hLeads⟩

/-- A line that two texts open together is opened by one of them. -/
theorem Opens.of_append (h : Opens line (a ++ b)) : Opens line a ∨ Opens line b := by
  obtain ⟨before, last, first, behind, hA, hB, hBoth⟩ := Path.split_append '\n' a b
  rw [Opens, hBoth] at h
  rw [Opens, Opens, hA, hB]
  exact exists_leads_of_append h

theorem OpensBelow.of_append (h : OpensBelow line (a ++ b)) : OpensBelow line a ∨ Opens line b := by
  obtain ⟨before, last, first, behind, hA, hB, hBoth⟩ := Path.split_append '\n' a b
  rw [OpensBelow, hBoth] at h
  rw [OpensBelow, Opens, hA, hB]
  cases before with
  | nil =>
      obtain ⟨piece, hPiece, hLeads⟩ := h
      exact .inr ⟨piece, List.mem_cons_of_mem _ hPiece, hLeads⟩
  | cons top before => exact exists_leads_of_append h

/-- What follows a text must not open the line, since the text may end with a line break. -/
theorem not_opensBelow_append (hA : ¬OpensBelow line a) (hB : ¬Opens line b) :
    ¬OpensBelow line (a ++ b) :=
  fun h => h.of_append.elim hA hB

theorem not_opens_empty : ¬Opens line "" := by
  intro h
  obtain ⟨piece, hPiece, hMarked, _⟩ := h
  rw [OneLine.split (by simp [OneLine]), List.mem_singleton] at hPiece
  subst hPiece
  cases hMarked

/-- A label may come before any text, since it stays on its line. -/
theorem not_opens_label (hLabel : isLabel cs = true) (hB : ¬OpensBelow line b) :
    ¬Opens line (String.ofList cs ++ b) := by
  rw [isLabel, Bool.and_eq_true] at hLabel
  obtain ⟨hHead, hOne⟩ := hLabel
  have hLine : OneLine (String.ofList cs) := oneLine_ofList (by simpa using hOne)
  intro h
  obtain ⟨piece, hPiece, hMarked, hPrefix⟩ := h
  rw [hLine.split_append, List.mem_cons] at hPiece
  rcases hPiece with rfl | hBelow
  · rw [StartsMarked, String.toList_append, String.toList_ofList, List.head?_append] at hMarked
    cases hChars : cs.head? with
    | none => simp [hChars] at hHead
    | some c => simp_all
  · exact hB ⟨piece, hBelow, hMarked, hPrefix⟩

/-- A label opens no line, since it begins with no mark. -/
theorem not_opens_of_isLabel (hLabel : isLabel cs = true) : ¬Opens line (String.ofList cs) := by
  have hNone : ¬Opens line (String.ofList cs ++ "") :=
    not_opens_label hLabel (not_opensBelow_of_not_opens not_opens_empty)
  rwa [String.append_empty] at hNone

/-- Items with commas between them. -/
theorem not_opens_intercalate {items : List String} (h : ∀ item ∈ items, ¬Opens line item) :
    ¬Opens line (", ".intercalate items) := by
  induction items with
  | nil => exact not_opens_empty
  | cons item items ih =>
      obtain ⟨hItem, hItems⟩ := List.forall_mem_cons.1 h
      by_cases hNil : items = []
      · rwa [hNil, String.intercalate_singleton]
      · rw [String.intercalate_cons_of_ne_nil hNil, String.append_assoc]
        intro hOpens
        rcases hOpens.of_append with hFirst | hRest
        · exact hItem hFirst
        · exact not_opens_label rfl (not_opensBelow_of_not_opens (ih hItems)) hRest

/-- Items with commas between them open no lines below the first unless one of them does. -/
theorem not_opensBelow_intercalate {items : List String}
    (h : ∀ item ∈ items, ¬OpensBelow line item) : ¬OpensBelow line (", ".intercalate items) := by
  induction items with
  | nil => exact not_opensBelow_of_not_opens not_opens_empty
  | cons item items ih =>
      obtain ⟨hItem, hItems⟩ := List.forall_mem_cons.1 h
      by_cases hNil : items = []
      · rwa [hNil, String.intercalate_singleton]
      · rw [String.intercalate_cons_of_ne_nil hNil, String.append_assoc]
        exact not_opensBelow_append hItem (not_opens_label rfl (ih hItems))

end SourceSurvey.Text
