import SourceSurvey.Facts.Idiom
import SourceSurvey.Proofs.Text.Word

/-!
Exported names in braces, as they are written: names, other names for them behind the keyword `as`,
and blanks in between. A name is read from what stands between two commas; the keyword is known only
by a space right before and a space right behind it, so that names with other blanks around the
keyword are not read alone, and a name that is the word `as` itself may be taken for the keyword.
-/

namespace SourceSurvey.Idiom

open Text

/-! ### Lists as they are written -/

/-- Blanks, or nothing, where the syntax has room for them. -/
structure Gap where
  chars : List Char
  blank : ∀ c ∈ chars, isBlank c = true

def Gap.none : Gap := ⟨[], List.forall_mem_nil _⟩

def Gap.ofBlank (c : Char) (h : isBlank c = true) : Gap := ⟨[c], List.forall_mem_singleton.2 h⟩

/-- The blanks without the last one. -/
def Gap.dropLast (g : Gap) : Gap :=
  ⟨g.chars.dropLast, fun c hC => g.blank c (List.dropLast_subset g.chars hC)⟩

/-- A character of a name: a letter, a digit, a low line or a dollar sign, or any character beyond
ASCII that is no blank. -/
def isNamePart (c : Char) : Bool :=
  if c.toNat < 128 then c.isAlphanum || c = '_' || c = '$' else !isBlank c

structure Identifier where
  chars : List Char
  ne_nil : chars ≠ []
  parts : ∀ c ∈ chars, isNamePart c = true

def keyword : List Char := "as".toList

/-- Another name that is given behind the keyword. -/
structure Alias where
  before : Gap
  behind : Gap
  before_ne_nil : before.chars ≠ []
  behind_ne_nil : behind.chars ≠ []
  name : Identifier

def Alias.text (a : Alias) : List Char :=
  a.before.chars ++ keyword ++ a.behind.chars ++ a.name.chars

/-- A name in a list, with the blanks around it. -/
structure Entry where
  before : Gap
  name : Identifier
  renamed : Option Alias
  behind : Gap

namespace Entry

/-- What follows the name. -/
def tail (e : Entry) : List Char := (e.renamed.map Alias.text).getD [] ++ e.behind.chars

def text (e : Entry) : List Char := e.before.chars ++ e.name.chars ++ e.tail

end Entry

/-- A list of exported names. Behind the last name a comma may stand, with blanks behind it. -/
structure ExportList where
  front : Gap
  behindExport : Gap
  first : Entry
  rest : List Entry
  trailing : Option Gap
  back : Gap

namespace ExportList

def entries (l : ExportList) : List Entry := l.first :: l.rest

/-- What stands between the commas. -/
def pieces (l : ExportList) : List (List Char) :=
  l.entries.map Entry.text ++ l.trailing.toList.map Gap.chars

def text (l : ExportList) : List Char :=
  l.front.chars ++ "export".toList ++ l.behindExport.chars ++
    '\x7b' :: ([','].intercalate l.pieces ++ '\x7d' :: l.back.chars)

end ExportList

/-! ### Characters -/

/-- No part of a name is a blank. -/
theorem isBlank_of_isNamePart {c : Char} (h : isNamePart c = true) : isBlank c = false := by
  have hAscii : ∀ n < 128, isNamePart (Char.ofNat n) = true → isBlank (Char.ofNat n) = false := by
    decide
  by_cases hC : c.toNat < 128
  · have hSame := hAscii c.toNat hC
    rw [Char.ofNat_toNat] at hSame
    exact hSame h
  · rw [isNamePart, if_neg hC, Bool.not_eq_true'] at h
    exact h

theorem Identifier.unbroken (x : Identifier) : Unbroken x.chars :=
  ⟨x.ne_nil, fun c hC => isBlank_of_isNamePart (x.parts c hC)⟩

/-- A character that may stand between the braces and commas of a list. -/
def isInner (c : Char) : Bool := isBlank c || isNamePart c

theorem Gap.inner (g : Gap) : ∀ c ∈ g.chars, isInner c = true :=
  fun c hC => by rw [isInner, g.blank c hC, Bool.true_or]

theorem Identifier.inner (x : Identifier) : ∀ c ∈ x.chars, isInner c = true :=
  fun c hC => by rw [isInner, x.parts c hC, Bool.or_true]

/-- The words that follow the word of an exported declaration. -/
def declarators : List (List Char) :=
  ["default", "class", "function", "const", "let", "var"].map String.toList

def syntaxWords : List (List Char) := keyword :: "export".toList :: declarators

/-- The words of the syntax could be names as well. -/
theorem exists_identifier {word : List Char} (h : word ∈ syntaxWords) :
    ∃ x : Identifier, x.chars = word := by
  have hParts : ∀ word ∈ syntaxWords, word ≠ [] ∧ word.all isNamePart = true := by decide
  obtain ⟨hSome, hAll⟩ := hParts word h
  exact ⟨⟨word, hSome, List.all_eq_true.1 hAll⟩, rfl⟩

/-- No word of the syntax has blanks in it. -/
theorem unbroken_of_mem_syntaxWords {word : List Char} (h : word ∈ syntaxWords) :
    Unbroken word := by
  obtain ⟨x, rfl⟩ := exists_identifier h
  exact x.unbroken

theorem inner_of_mem_syntaxWords {word : List Char} (h : word ∈ syntaxWords) :
    ∀ c ∈ word, isInner c = true := by
  obtain ⟨x, rfl⟩ := exists_identifier h
  exact x.inner

theorem keyword_mem_syntaxWords : keyword ∈ syntaxWords := List.mem_cons_self

theorem export_mem_syntaxWords : "export".toList ∈ syntaxWords :=
  List.mem_cons_of_mem _ List.mem_cons_self

theorem unbroken_keyword : Unbroken keyword := unbroken_of_mem_syntaxWords keyword_mem_syntaxWords

theorem mem_syntaxWords_of_mem_declarators {word : List Char} (h : word ∈ declarators) :
    word ∈ syntaxWords :=
  List.mem_cons_of_mem _ (List.mem_cons_of_mem _ h)

theorem Alias.inner (a : Alias) : ∀ c ∈ a.text, isInner c = true := by
  simp only [Alias.text, List.forall_mem_append]
  exact ⟨⟨⟨a.before.inner, inner_of_mem_syntaxWords keyword_mem_syntaxWords⟩, a.behind.inner⟩,
    a.name.inner⟩

namespace Entry

variable (e : Entry)

theorem inner_tail : ∀ c ∈ e.tail, isInner c = true := by
  rw [tail, List.forall_mem_append]
  refine ⟨?_, e.behind.inner⟩
  cases e.renamed with
  | none => exact fun c hC => nomatch hC
  | some a => exact a.inner

theorem inner : ∀ c ∈ e.text, isInner c = true := by
  simp only [text, List.forall_mem_append]
  exact ⟨⟨e.before.inner, e.name.inner⟩, e.inner_tail⟩

theorem blank_of_mem_head?_tail : ∀ c ∈ e.tail.head?, isBlank c = true := by
  rw [tail]
  cases e.renamed with
  | none => exact fun c hC => e.behind.blank c (List.mem_of_mem_head? hC)
  | some a =>
      obtain ⟨first, others, hFirst⟩ := List.exists_cons_of_ne_nil a.before_ne_nil
      intro c hC
      simp only [Option.map_some, Option.getD_some, Alias.text, hFirst] at hC
      cases hC
      exact a.before.blank first (hFirst ▸ List.mem_cons_self)

end Entry

/-! ### Reading an entry -/

/-- The local name in a piece of a list. -/
def localName (piece : List Char) : List Char := trimBoth isBlank (beforeInfix " as ".toList piece)

/-- Local names are what is left of the pieces between commas. -/
theorem localNames_eq (list : List Char) :
    localNames list = ((list.splitOn ',').map localName).filter (!·.isEmpty) := by
  rw [localNames, splitBy_eq_splitOn]
  rfl

/-- The keyword is looked for between two spaces, so that a name before it can be taken for it. -/
theorem beforeInfix_keyword {gap word cs : List Char} (hGap : ∀ c ∈ gap, isBlank c = true)
    (hWord : Unbroken word) (hNext : ∀ c ∈ cs.head?, isBlank c = true) :
    beforeInfix " as ".toList (gap ++ word ++ cs) =
      if gap.getLast? = some ' ' ∧ word = keyword ∧ cs.head? = some ' ' then gap.dropLast
      else gap ++ word ++ beforeInfix " as ".toList cs :=
  beforeInfix_blanks_word rfl rfl unbroken_keyword hGap hWord hNext

theorem Gap.beforeInfix (g : Gap) : beforeInfix " as ".toList g.chars = g.chars := by
  rcases eq_beforeInfix_append " as ".toList g.chars with hAll | ⟨rest, hRest⟩
  · exact hAll
  · have hMem : 'a' ∈ g.chars := by
      rw [hRest]
      simp
    exact absurd (g.blank 'a' hMem) (by decide)

theorem localName_gap (g : Gap) : localName g.chars = [] := by
  rw [localName, g.beforeInfix, trimBoth_eq_nil g.blank]

namespace Alias

variable (a : Alias)

/-- The keyword is between spaces. -/
def Spaced : Prop := a.before.chars.getLast? = some ' ' ∧ a.behind.chars.head? = some ' '

instance : Decidable a.Spaced := inferInstanceAs (Decidable (_ ∧ _))

/-- A name is cut at its alias just if there are spaces on both sides of the keyword. -/
theorem beforeInfix_text (cs : List Char) : beforeInfix " as ".toList (a.text ++ cs) =
    if a.Spaced then a.before.dropLast.chars
    else a.before.chars ++ keyword ++
      beforeInfix " as ".toList (a.behind.chars ++ (a.name.chars ++ cs)) := by
  have hHead : (a.behind.chars ++ (a.name.chars ++ cs)).head? = a.behind.chars.head? := by
    obtain ⟨first, others, hFirst⟩ := List.exists_cons_of_ne_nil a.behind_ne_nil
    rw [hFirst]
    rfl
  have hNext : ∀ c ∈ (a.behind.chars ++ (a.name.chars ++ cs)).head?, isBlank c = true := by
    rw [hHead]
    exact fun c hC => a.behind.blank c (List.mem_of_mem_head? hC)
  rw [text, List.append_assoc, List.append_assoc,
    beforeInfix_keyword a.before.blank unbroken_keyword hNext, hHead]
  by_cases hSpaced : a.Spaced
  · rw [if_pos hSpaced, if_pos ⟨hSpaced.1, rfl, hSpaced.2⟩]
    rfl
  · rw [if_neg hSpaced, if_neg fun h => hSpaced ⟨h.1, h.2.2⟩]

end Alias

namespace Entry

variable (e : Entry)

/-- The name itself is the word of the keyword, between spaces. -/
def Mistaken : Prop :=
  e.before.chars.getLast? = some ' ' ∧ e.name.chars = keyword ∧ e.tail.head? = some ' '

instance : Decidable e.Mistaken := inferInstanceAs (Decidable (_ ∧ _))

theorem beforeInfix_text : beforeInfix " as ".toList e.text =
    if e.Mistaken then e.before.dropLast.chars
    else e.before.chars ++ e.name.chars ++ beforeInfix " as ".toList e.tail :=
  beforeInfix_keyword e.before.blank e.name.unbroken e.blank_of_mem_head?_tail

/-- With the keyword behind it, the name is not all that is read. -/
theorem trimBoth_keyword_ne {gap : Gap} (hGap : gap.chars ≠ []) (more : List Char) :
    trimBoth isBlank (e.before.chars ++ e.name.chars ++ (gap.chars ++ keyword ++ more)) ≠
      e.name.chars := by
  intro hName
  have hKeyword : words (keyword ++ more) ≠ [] :=
    words_ne_nil (c := 'a') (by decide) (by simp [keyword])
  have hWords := congrArg words hName
  rw [words_trimBoth, e.name.unbroken.words, List.append_assoc gap.chars,
    ← List.append_assoc (e.before.chars ++ e.name.chars), words_append_gap_append gap.blank hGap,
    words_gap_append e.before.blank, e.name.unbroken.words] at hWords
  exact hKeyword (List.append_right_eq_self.1 hWords)

/-- The name is read alone if it is not taken for the keyword, and if the keyword, when there is
one, is known as such. -/
theorem localName_text_iff :
    localName e.text = e.name.chars ↔ ¬e.Mistaken ∧ ∀ a ∈ e.renamed, a.Spaced := by
  rw [localName, e.beforeInfix_text]
  by_cases hMistaken : e.Mistaken
  · rw [if_pos hMistaken, trimBoth_eq_nil e.before.dropLast.blank]
    exact ⟨fun h => absurd h.symm e.name.ne_nil, fun h => absurd hMistaken h.1⟩
  · rw [if_neg hMistaken, and_iff_right hMistaken, tail]
    cases e.renamed with
    | none =>
        have hName := e.name.unbroken.trimBoth e.before.blank e.behind.blank
        simpa only [Option.map_none, Option.getD_none, List.nil_append, e.behind.beforeInfix, hName,
          true_iff] using fun a hA => nomatch hA
    | some a =>
        simp only [Option.map_some, Option.getD_some, Option.mem_some_iff, forall_eq',
          a.beforeInfix_text]
        by_cases hSpaced : a.Spaced
        · rw [if_pos hSpaced, e.name.unbroken.trimBoth e.before.blank a.before.dropLast.blank]
          exact iff_of_true rfl hSpaced
        · rw [if_neg hSpaced]
          exact iff_of_false (e.trimBoth_keyword_ne a.before_ne_nil _) hSpaced

end Entry

/-! ### The captured list -/

/-- As many values as there were before, so that none has been left out as empty. -/
theorem filter_map_eq_map_iff {α : Type} {l : List α} {f g : α → List Char}
    (hSome : ∀ x ∈ l, g x ≠ []) :
    (l.map f).filter (!·.isEmpty) = l.map g ↔ ∀ x ∈ l, f x = g x := by
  constructor
  · intro h
    have hLength : ((l.map f).filter (!·.isEmpty)).length = (l.map f).length := by
      rw [h, List.length_map, List.length_map]
    rw [List.filter_eq_self.2 (List.length_filter_eq_length_iff.1 hLength)] at h
    exact List.map_inj_left.1 h
  · intro h
    rw [List.map_inj_left.2 h, List.filter_eq_self, List.forall_mem_map]
    exact fun x hX => by simp [hSome x hX]

namespace Entry

/-- The entry without the blanks before it. -/
def atStart (e : Entry) : Entry := { e with before := .none }

theorem text_eq_append_atStart (e : Entry) : e.text = e.before.chars ++ e.atStart.text := by
  simp [text, atStart, tail, Gap.none]

/-- At the start of a list no name is taken for the keyword, as nothing stands before it. -/
theorem not_mistaken_atStart (e : Entry) : ¬e.atStart.Mistaken := fun h => nomatch h.1

end Entry

namespace ExportList

variable (l : ExportList)

/-- The entries as they are captured: the blanks behind the brace belong to none of them. -/
def captured : List Entry := l.first.atStart :: l.rest

def capturedPieces : List (List Char) :=
  l.captured.map Entry.text ++ l.trailing.toList.map Gap.chars

/-- What is captured of the list. -/
def body : List Char := [','].intercalate l.capturedPieces

theorem intercalate_pieces :
    [','].intercalate l.pieces = l.first.before.chars ++ l.body := by
  rw [pieces, entries, List.map_cons, l.first.text_eq_append_atStart, List.cons_append,
    intercalate_append_cons]
  rfl

theorem inner_capturedPieces : ∀ piece ∈ l.capturedPieces, ∀ c ∈ piece, isInner c = true := by
  simp only [capturedPieces, List.forall_mem_append, List.forall_mem_map]
  exact ⟨fun e _ => e.inner, fun g _ => g.inner⟩

/-- What is captured of a list has a piece for each entry, without the blanks before the first, and one
for the blanks behind a last comma. -/
theorem splitOn_body : l.body.splitOn ',' = l.capturedPieces := by
  refine List.splitOn_intercalate ',' (fun piece hPiece hComma => ?_) ?_
  · exact absurd (l.inner_capturedPieces piece hPiece ',' hComma) (by decide)
  · simp [capturedPieces, captured]

/-- All names are found, and no other, if each is read alone. -/
theorem localNames_body_iff : localNames l.body = l.entries.map (·.name.chars) ↔
    (∀ e ∈ l.entries, ∀ a ∈ e.renamed, a.Spaced) ∧ ∀ e ∈ l.rest, ¬e.Mistaken := by
  have hNames : l.entries.map (·.name.chars) = l.captured.map (·.name.chars) := rfl
  have hTrailing : ((l.trailing.toList.map Gap.chars).map localName).filter (!·.isEmpty) = [] := by
    simp [localName_gap]
  have hRead : localNames l.body = (l.captured.map (localName ·.text)).filter (!·.isEmpty) := by
    rw [localNames_eq, splitOn_body, capturedPieces, List.map_append, List.filter_append, hTrailing,
      List.append_nil, List.map_map]
    rfl
  rw [hNames, hRead, filter_map_eq_map_iff fun e _ => e.name.ne_nil]
  simp only [Entry.localName_text_iff, captured, entries, List.forall_mem_cons]
  constructor
  · rintro ⟨⟨_, hFirst⟩, hRest⟩
    exact ⟨⟨hFirst, fun e hE => (hRest e hE).2⟩, fun e hE => (hRest e hE).1⟩
  · rintro ⟨⟨hFirst, hSpaced⟩, hKept⟩
    exact ⟨⟨l.first.not_mistaken_atStart, hFirst⟩, fun e hE => ⟨hKept e hE, hSpaced e hE⟩⟩

theorem body_eq_append : ∃ more, l.body = l.first.name.chars ++ more := by
  refine ⟨[','].intercalate (l.first.tail :: (l.rest.map Entry.text ++
    l.trailing.toList.map Gap.chars)), ?_⟩
  rw [← intercalate_append_cons]
  rfl

/-- A list has no brackets in it. -/
theorem mem_body {c : Char} (h : c ∈ l.body) : isInner c = true ∨ c = ',' := by
  rcases mem_of_mem_intercalate h with hComma | ⟨piece, hPiece, hMem⟩
  · exact .inr hComma
  · exact .inl (l.inner_capturedPieces piece hPiece c hMem)

end ExportList

end SourceSurvey.Idiom
