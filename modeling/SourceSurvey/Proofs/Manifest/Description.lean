import SourceSurvey.Proofs.Manifest.Comment
import SourceSurvey.Proofs.Text.Layout

/-!
Module descriptions as they are written: requirements on lines of their own and in blocks, with
comments, empty lines and other directives between them. What a line is does not depend on its
layout, and after every part of a description the lines that follow are out of a block, so all
requirements and nothing else are found, in order. Only a version that ends with a slash loses it to
a comment right behind it.
-/

namespace SourceSurvey.Manifest

open Text

namespace Description

/-! ### Descriptions as they are written -/

/-- The path of a module, or its version. -/
structure Token where
  chars : List Char
  unbroken : Unbroken chars
  no_opening : '(' ∉ chars
  no_closing : ')' ∉ chars
  no_slashes : ¬slashes <:+: chars

/-- A module in the version that is required. -/
structure Requirement where
  path : Token
  version : Token
  path_ne_require : path.chars ≠ "require".toList

def Requirement.dependency (r : Requirement) : Dependency :=
  (String.ofList r.path.chars, String.ofList r.version.chars)

/-- What stands behind two slashes. -/
structure Remark where
  chars : List Char
  inLine : '\n' ∉ chars

/-- A requirement with the blanks in it and behind it, and perhaps a comment. -/
structure Entry where
  requirement : Requirement
  gap : Margin
  gap_ne_nil : gap.chars ≠ []
  behind : Margin
  remark : Option Remark

namespace Entry

/-- The path and the version. -/
def words (e : Entry) : List Char :=
  e.requirement.path.chars ++ e.gap.chars ++ e.requirement.version.chars

/-- What follows the version. -/
def ending (e : Entry) : List Char :=
  e.behind.chars ++ (e.remark.map (slashes ++ ·.chars)).getD []

def text (e : Entry) : List Char := e.words ++ e.ending

/-- The comment is right behind a version that ends with a slash. Its two slashes begin with that
one. -/
def glued (e : Entry) : Bool :=
  e.remark.isSome && e.behind.chars.isEmpty && e.requirement.version.chars.getLast? = some '/'

/-- The version up to the first two slashes. -/
def version (e : Entry) : List Char :=
  if e.glued then e.requirement.version.chars.dropLast else e.requirement.version.chars

/-- What an entry is read as. -/
def dependency (e : Entry) : Dependency :=
  (String.ofList e.requirement.path.chars, String.ofList e.version)

end Entry

/-- A line of a block. -/
inductive Item where
  | blank (margin : Margin)
  | remark (before : Margin) (r : Remark)
  | entry (before : Margin) (e : Entry)

namespace Item

def line : Item → List Char
  | blank margin => margin.chars
  | remark before r => before.chars ++ slashes ++ r.chars
  | entry before e => before.chars ++ e.text

def entries : Item → List Entry
  | entry _ e => [e]
  | _ => []

end Item

/-- A part of a description. -/
inductive Part where
  /-- A line that begins with no requirement: one of another directive or of a block of one, an
  empty line or a comment. -/
  | other (line : List Char) (inLine : '\n' ∉ line) (plain : ¬require <+: trimBoth isBlank line)
  | single (before gap : Margin) (e : Entry) (no_opening : ∀ r ∈ e.remark, '(' ∉ r.chars)
  | block (before behind : Margin) (items : List Item) (beforeEnd behindEnd : Margin)

namespace Part

def lines : Part → List (List Char)
  | other line _ _ => [line]
  | single before gap e _ => [before.chars ++ (require ++ gap.chars ++ e.text)]
  | block before behind items beforeEnd behindEnd =>
    (before.chars ++ "require (".toList ++ behind.chars) ::
      (items.map Item.line ++ [beforeEnd.chars ++ [')'] ++ behindEnd.chars])

def entries : Part → List Entry
  | other _ _ _ => []
  | single _ _ e _ => [e]
  | block _ _ items _ _ => items.flatMap Item.entries

end Part

end Description

/-- A description with its layout. A line feed at the end has an empty line behind it. -/
abbrev Description := List Description.Part

namespace Description

def text (d : Description) : String :=
  String.ofList (['\n'].intercalate (d.flatMap Part.lines))

def entries (d : Description) : List Entry := d.flatMap Part.entries

def requirements (d : Description) : List Requirement := d.entries.map Entry.requirement

/-! ### Entries -/

variable {xs cs : List Char}

/-- A text without two slashes is kept where the next character makes none of them. -/
theorem beforeInfix_slashes_append (hNone : ¬slashes <:+: xs)
    (hNext : cs.head? ≠ some '/' ∨ xs.getLast? ≠ some '/') :
    beforeInfix slashes (xs ++ cs) = xs ++ beforeInfix slashes cs := by
  have hSlashes : slashes = ['/', '/'] := by decide
  induction xs with
  | nil => rfl
  | cons x xs ih =>
      have hRest : ¬slashes <:+: xs := fun h => hNone (h.trans (List.suffix_cons x xs).isInfix)
      have hNot : ¬slashes <+: x :: (xs ++ cs) := by
        intro hPrefix
        rw [hSlashes] at hPrefix hNone
        obtain ⟨rfl, hSecond⟩ := List.cons_prefix_cons.1 hPrefix
        cases xs with
        | nil =>
            obtain ⟨rest, hRest⟩ := hSecond
            obtain rfl : '/' :: rest = cs := hRest
            rcases hNext with hHead | hLast
            · exact hHead rfl
            · exact hLast rfl
        | cons y ys =>
            obtain ⟨rfl, _⟩ := List.cons_prefix_cons.1 hSecond
            exact hNone ⟨[], ys, rfl⟩
      have hLater : cs.head? ≠ some '/' ∨ xs.getLast? ≠ some '/' := by
        cases xs with
        | nil => exact .inr (by simp)
        | cons y ys => rwa [List.getLast?_cons_cons] at hNext
      rw [List.cons_append, beforeInfix, if_neg (by rwa [List.isPrefixOf_iff_prefix]),
        ih hRest hLater, List.cons_append]

theorem beforeInfix_slashes_margin (m : Margin) (cs : List Char) :
    beforeInfix slashes (m.chars ++ cs) = m.chars ++ beforeInfix slashes cs :=
  beforeInfix_append_left (by decide) fun c hC => not_mem_slashes_of_isBlank (m.blank c hC)

/-- A blank is no slash. -/
theorem head?_margin_ne (m : Margin) (hSome : m.chars ≠ []) (cs : List Char) :
    (m.chars ++ cs).head? ≠ some '/' := by
  obtain ⟨first, others, hFirst⟩ := List.exists_cons_of_ne_nil hSome
  intro hSlash
  rw [hFirst, List.cons_append, List.head?_cons] at hSlash
  have hBlank := m.blank first (by rw [hFirst]; exact List.mem_cons_self)
  rw [Option.some.inj hSlash] at hBlank
  exact absurd hBlank (by decide)

namespace Entry

variable (e : Entry)

/-- Of what follows a version, the blanks stand before the comment. -/
theorem beforeInfix_ending : beforeInfix slashes e.ending = e.behind.chars := by
  rw [ending, beforeInfix_slashes_margin]
  cases e.remark with
  | none => exact List.append_nil _
  | some r =>
      have hCut : beforeInfix slashes (slashes ++ r.chars) = [] := rfl
      rw [Option.map_some, Option.getD_some, hCut, List.append_nil]

theorem head?_ending (h : e.glued = false) : e.ending.head? ≠ some '/' ∨
    e.requirement.version.chars.getLast? ≠ some '/' := by
  by_cases hBehind : e.behind.chars = []
  · cases hRemark : e.remark with
    | none => exact .inl (by simp [ending, hRemark, hBehind])
    | some r => exact .inr (by simpa [glued, hRemark, hBehind] using h)
  · exact .inl (head?_margin_ne e.behind hBehind _)

/-- A version that ends with a slash, and what is before the slash: this neither has two slashes nor
ends with one. -/
theorem exists_of_glued (h : e.glued = true) :
    ∃ front, e.requirement.version.chars = front ++ ['/'] ∧ e.version = front ∧
      ¬slashes <:+: front ∧ front.getLast? ≠ some '/' := by
  have hSlashes : slashes = ['/', '/'] := by decide
  have hNone := e.requirement.version.no_slashes
  have hEnd : e.requirement.version.chars.getLast? = some '/' := by
    simp only [glued, Bool.and_eq_true, decide_eq_true_eq] at h
    exact h.2
  obtain ⟨front, hFront⟩ := List.getLast?_eq_some_iff.1 hEnd
  rw [hFront, hSlashes] at hNone
  refine ⟨front, hFront, ?_, ?_, ?_⟩
  · rw [version, if_pos h, hFront, List.dropLast_concat]
  · rw [hSlashes]
    exact fun hInfix => hNone (hInfix.trans (List.prefix_append _ _).isInfix)
  · intro hLast
    obtain ⟨before, rfl⟩ := List.getLast?_eq_some_iff.1 hLast
    exact hNone ⟨before, [], by simp⟩

/-- A version is cut where its comment begins, or one character earlier where it ends in a slash to
which the comment is glued. -/
theorem beforeInfix_version : beforeInfix slashes (e.requirement.version.chars ++ e.ending) =
    e.version ++ e.behind.chars := by
  cases hGlued : e.glued with
  | false =>
      have hWhole : e.version = e.requirement.version.chars := by simp [version, hGlued]
      rw [beforeInfix_slashes_append e.requirement.version.no_slashes (e.head?_ending hGlued),
        e.beforeInfix_ending, hWhole]
  | true =>
      obtain ⟨front, hFront, hVersion, hNone, hLast⟩ := e.exists_of_glued hGlued
      obtain ⟨r, hEnding, hBehind⟩ :
          ∃ r : Remark, e.ending = slashes ++ r.chars ∧ e.behind.chars = [] := by
        simp only [glued, Bool.and_eq_true, List.isEmpty_iff] at hGlued
        obtain ⟨r, hRemark⟩ := Option.isSome_iff_exists.1 hGlued.1.1
        exact ⟨r, by simp [ending, hRemark, hGlued.1.2], hGlued.1.2⟩
      have hCut : beforeInfix slashes ('/' :: (slashes ++ r.chars)) = [] := rfl
      rw [hFront, hEnding, hBehind, hVersion, List.append_assoc, List.singleton_append,
        beforeInfix_slashes_append hNone (.inr hLast), hCut]

/-- The comment begins behind the version that is read. -/
theorem beforeInfix_text : beforeInfix slashes e.text =
    e.requirement.path.chars ++ e.gap.chars ++ (e.version ++ e.behind.chars) := by
  have hGap := head?_margin_ne e.gap e.gap_ne_nil (e.requirement.version.chars ++ e.ending)
  rw [text, words, List.append_assoc, List.append_assoc,
    beforeInfix_slashes_append e.requirement.path.no_slashes (.inl hGap),
    beforeInfix_slashes_margin, e.beforeInfix_version, List.append_assoc]

/-- A version that is not cut down to nothing is one word. -/
theorem words_version : Text.words e.version = if e.version = [] then [] else [e.version] := by
  have hSubset : e.version ⊆ e.requirement.version.chars := by
    rw [version]
    split
    · exact List.dropLast_subset _
    · exact List.Subset.refl _
  split
  · rename_i hNil
    rw [hNil]
    rfl
  · rename_i hSome
    have hBlank := e.requirement.version.unbroken.not_blank
    exact Unbroken.words ⟨hSome, fun c hC => hBlank c (hSubset hC)⟩

/-- An entry is read as its dependency, wherever it stands on the line. -/
theorem requireLine?_text (m : Margin) : requireLine? (m.chars ++ e.text) = some e.dependency := by
  have hWords : Text.words (beforeInfix slashes (m.chars ++ e.text)) =
      e.requirement.path.chars :: if e.version = [] then [] else [e.version] := by
    rw [beforeInfix_slashes_margin, e.beforeInfix_text, words_gap_append m.blank,
      words_append_gap_append e.gap.blank e.gap_ne_nil, e.requirement.path.unbroken.words,
      words_append_blanks e.behind.blank, e.words_version, List.singleton_append]
  rw [slashes] at hWords
  rw [requireLine?, hWords, dependency]
  by_cases hNil : e.version = []
  · rw [if_pos hNil, hNil]
  · rw [if_neg hNil]

theorem not_mem_text {c : Char} (hPath : c ∉ e.requirement.path.chars) (hGap : c ∉ e.gap.chars)
    (hVersion : c ∉ e.requirement.version.chars) (hBehind : c ∉ e.behind.chars)
    (hSlashes : c ∉ slashes) (hRemark : ∀ r ∈ e.remark, c ∉ r.chars) : c ∉ e.text := by
  have hComment : c ∉ (e.remark.map (slashes ++ ·.chars)).getD [] := by
    cases hSome : e.remark with
    | none => exact List.not_mem_nil
    | some r =>
        rw [Option.map_some, Option.getD_some, List.mem_append, not_or]
        exact ⟨hSlashes, hRemark r hSome⟩
  simp only [text, words, ending, List.mem_append, not_or]
  exact ⟨⟨⟨hPath, hGap⟩, hVersion⟩, hBehind, hComment⟩

theorem words_ne_nil : e.words ≠ [] := by
  simp [words, e.requirement.path.unbroken.ne_nil]

theorem head?_words : e.words.head? = e.requirement.path.chars.head? := by
  obtain ⟨first, others, hFirst⟩ := List.exists_cons_of_ne_nil e.requirement.path.unbroken.ne_nil
  simp [words, hFirst]

theorem not_blank_of_getLast? : ∀ c ∈ e.words.getLast?, isBlank c = false := by
  intro c hC
  rw [words, List.getLast?_append_of_ne_nil _ e.requirement.version.unbroken.ne_nil] at hC
  exact e.requirement.version.unbroken.not_blank c (List.mem_of_mem_getLast? hC)

end Entry

/-! ### Trimmed lines -/

/-- Blanks around a requirement are no part of it. -/
theorem requireLine?_trimBoth (line : List Char) :
    requireLine? (trimBoth isBlank line) = requireLine? line := by
  apply requireLine?_congr
  rw [← words_trimBoth, trimBoth_cut, trimBoth_trimBoth, ← trimBoth_cut, words_trimBoth]

/-- Blanks behind a requirement are no part of it. -/
theorem requireLine?_append_blanks {line blanks : List Char} (h : ∀ c ∈ blanks, isBlank c = true) :
    requireLine? (line ++ blanks) = requireLine? line := by
  rw [← requireLine?_trimBoth, trimBoth_append_right h, requireLine?_trimBoth]

theorem not_slashes_prefix_of_requireLine? {line : List Char} {d : Dependency}
    (h : requireLine? line = some d) : ¬slashes <+: line := by
  rintro ⟨rest, rfl⟩
  have hCut : beforeInfix slashes (slashes ++ rest) = [] := rfl
  rw [requireLine?, ← slashes, hCut] at h
  cases h

/-- The first word of an entry is the path of a module, which is not "require". -/
theorem Entry.not_require_prefix (e : Entry) (kept : List Char) :
    ¬require <+: e.words ++ kept := by
  rintro ⟨rest, hRest⟩
  have hKeyword : Unbroken "require".toList := unbroken_of_all (by decide) rfl
  have hRequire : Text.words (require ++ rest) = "require".toList :: Text.words rest := by
    have hSplit : require ++ rest = "require".toList ++ ' ' :: rest := rfl
    rw [hSplit, words_append_blank (by decide), hKeyword.words, List.singleton_append]
  have hEntry : Text.words (e.words ++ kept) =
      e.requirement.path.chars :: Text.words (e.requirement.version.chars ++ kept) := by
    rw [Entry.words, List.append_assoc, words_append_gap_append e.gap.blank e.gap_ne_nil,
      e.requirement.path.unbroken.words, List.singleton_append]
  have hFirst := hRequire.symm.trans ((congrArg Text.words hRest).trans hEntry)
  exact e.requirement.path_ne_require (List.cons.inj hFirst).1.symm

/-- An entry of a block. -/
theorem lineEffect_entry (before : Margin) (e : Entry) :
    lineEffect true (trimBoth isBlank (before.chars ++ e.text)) = (true, [e.dependency]) := by
  have hRequired := e.requireLine?_text before
  rw [← requireLine?_trimBoth] at hRequired
  have hSlashes := not_slashes_prefix_of_requireLine? hRequired
  obtain ⟨kept, _, _, _, hTrim⟩ := exists_trimBoth_append e.words_ne_nil
    (by
      rw [e.head?_words]
      exact fun c hC => e.requirement.path.unbroken.not_blank c (List.mem_of_mem_head? hC))
    e.not_blank_of_getLast? e.ending
  rw [trimBoth_append_left before.blank, Entry.text, hTrim] at hRequired hSlashes ⊢
  have hNil : e.words ++ kept ≠ [] := List.append_ne_nil_of_left_ne_nil e.words_ne_nil kept
  have hClosing : e.words ++ kept ≠ [')'] := by
    intro hLine
    have hHead := congrArg List.head? hLine
    rw [List.head?_append_of_ne_nil _ e.words_ne_nil, e.head?_words] at hHead
    exact e.requirement.path.no_closing (List.mem_of_mem_head? hHead)
  rw [lineEffect_other true hNil hSlashes hClosing (e.not_require_prefix kept), hRequired]
  rfl

/-- Of a requirement on a line of its own blanks are trimmed off the end only. -/
theorem exists_trimBoth_single (gap : Margin) (e : Entry) :
    ∃ kept blanks, (∀ c ∈ blanks, isBlank c = true) ∧
      gap.chars ++ e.text = gap.chars ++ e.words ++ kept ++ blanks ∧
      trimBoth isBlank (require ++ gap.chars ++ e.text) =
        require ++ (gap.chars ++ e.words ++ kept) := by
  have hRequire : require = 'r' :: "equire ".toList := by decide
  have hFirst : ∀ c ∈ (require ++ (gap.chars ++ e.words)).head?, isBlank c = false := by
    rw [hRequire]
    exact fun c hC => by cases hC; rfl
  have hLast : ∀ c ∈ (require ++ (gap.chars ++ e.words)).getLast?, isBlank c = false := by
    rw [← List.append_assoc, List.getLast?_append_of_ne_nil _ e.words_ne_nil]
    exact e.not_blank_of_getLast?
  obtain ⟨kept, blanks, hBlanks, hKept, hTrim⟩ :=
    exists_trimBoth_append (by rw [hRequire]; exact List.cons_ne_nil _ _) hFirst hLast e.ending
  refine ⟨kept, blanks, hBlanks, ?_, ?_⟩
  · rw [Entry.text, hKept]
    simp only [List.append_assoc]
  · rw [Entry.text, List.append_assoc, ← List.append_assoc gap.chars, ← List.append_assoc, hTrim,
      List.append_assoc require]

/-- A requirement on a line of its own. -/
theorem lineEffect_single (inBlock : Bool) (before gap : Margin) (e : Entry)
    (hRemark : ∀ r ∈ e.remark, '(' ∉ r.chars) :
    lineEffect inBlock (trimBoth isBlank (before.chars ++ (require ++ gap.chars ++ e.text))) =
      (inBlock, [e.dependency]) := by
  have hMargin : ∀ m : Margin, '(' ∉ m.chars := fun m hMem => absurd (m.blank _ hMem) (by decide)
  have hText : '(' ∉ e.text := e.not_mem_text e.requirement.path.no_opening (hMargin e.gap)
    e.requirement.version.no_opening (hMargin e.behind) (by decide) hRemark
  obtain ⟨kept, blanks, hBlanks, hWhole, hTrim⟩ := exists_trimBoth_single gap e
  have hBracket : '(' ∉ gap.chars ++ e.words ++ kept := by
    intro hMem
    have hAll := List.mem_append_left blanks hMem
    rw [← hWhole, List.mem_append] at hAll
    exact hAll.elim (hMargin gap) hText
  have hOpening : require ++ (gap.chars ++ e.words ++ kept) ≠ "require (".toList := by
    have hWord : "require (".toList = require ++ ['('] := by decide
    intro hSame
    rw [hWord, List.append_cancel_left_eq] at hSame
    rw [hSame] at hBracket
    exact hBracket List.mem_cons_self
  have hRequired : requireLine? (gap.chars ++ e.words ++ kept) = some e.dependency := by
    rw [← requireLine?_append_blanks hBlanks, ← hWhole]
    exact e.requireLine?_text gap
  rw [trimBoth_append_left before.blank, hTrim, lineEffect_require inBlock hOpening, hRequired,
    if_neg (by simpa using hBracket)]
  rfl

/-- A line of a block requires what its entries say and leaves the block open. -/
theorem lineEffect_item (i : Item) : lineEffect true (trimBoth isBlank i.line) =
    (true, i.entries.map Entry.dependency) := by
  cases i with
  | blank margin =>
      rw [Item.line, trimBoth_eq_nil margin.blank]
      rfl
  | remark before r =>
      have hSlash : ∀ c, some '/' = some c → isBlank c = false :=
        fun c hC => Option.some.inj hC ▸ rfl
      obtain ⟨kept, _, _, _, hTrim⟩ :=
        @exists_trimBoth_append isBlank slashes (by decide) hSlash hSlash r.chars
      rw [Item.line, List.append_assoc, trimBoth_append_left before.blank, hTrim, lineEffect,
        if_pos (.inr (List.isPrefixOf_iff_prefix.2 (List.prefix_append _ _)))]
      rfl
  | entry before e => exact lineEffect_entry before e

/-- A line out of blocks that begins with no requirement. -/
theorem lineEffect_plain {line : List Char} (h : ¬require <+: line) :
    lineEffect false line = (false, []) := by
  have hOpening : line ≠ "require (".toList := by
    rintro rfl
    exact h (by decide)
  have hRequire : ¬require.isPrefixOf line = true := by rwa [List.isPrefixOf_iff_prefix]
  rw [lineEffect, if_neg hOpening, if_neg hRequire]
  split
  · rfl
  · split <;> rfl

/-- What stands between margins is what is left without them. -/
theorem trimBoth_margins (before behind : Margin) {word : List Char}
    (h : trimBoth isBlank word = word) :
    trimBoth isBlank (before.chars ++ word ++ behind.chars) = word := by
  rw [trimBoth_append_right behind.blank, trimBoth_append_left before.blank, h]

/-! ### Parts and descriptions -/

/-- The lines of a block leave the lines behind them in the block. -/
theorem requirements_items (items : List Item) (rest : List (List Char)) :
    Manifest.requirements true ((items.map Item.line).map (trimBoth isBlank) ++ rest) =
      (items.flatMap Item.entries).map Entry.dependency ++
        Manifest.requirements true rest := by
  induction items with
  | nil => rfl
  | cons i items ih =>
      rw [List.map_cons, List.map_cons, List.cons_append, requirements_cons, lineEffect_item, ih,
        List.flatMap_cons, List.map_append, List.append_assoc]

/-- Every part leaves the lines behind it out of a block. -/
theorem requirements_part (part : Part) (rest : List (List Char)) :
    Manifest.requirements false (part.lines.map (trimBoth isBlank) ++ rest) =
      part.entries.map Entry.dependency ++ Manifest.requirements false rest := by
  cases part with
  | other line inLine plain =>
      rw [Part.lines, List.map_singleton, List.singleton_append, requirements_cons,
        lineEffect_plain plain]
      rfl
  | single before gap e hNoOpening =>
      rw [Part.lines, List.map_singleton, List.singleton_append, requirements_cons,
        lineEffect_single false before gap e hNoOpening]
      rfl
  | block before behind items beforeEnd behindEnd =>
      have hOpening : lineEffect false "require (".toList = (true, []) := by decide
      have hClosing : lineEffect true [')'] = (false, []) := by decide
      rw [Part.lines, List.map_cons, List.map_append, List.map_singleton,
        trimBoth_margins before behind (by decide),
        trimBoth_margins beforeEnd behindEnd (by decide), List.cons_append, requirements_cons,
        hOpening, List.append_assoc, requirements_items, List.singleton_append, requirements_cons,
        hClosing]
      rfl

/-- By induction over the parts: each leaves the reader outside a block, as it has found it. -/
theorem requirements_parts (d : Description) :
    Manifest.requirements false ((d.flatMap Part.lines).map (trimBoth isBlank)) =
      d.entries.map Entry.dependency := by
  induction d with
  | nil => rfl
  | cons part d ih =>
      rw [List.flatMap_cons, List.map_append, requirements_part, ih, entries, entries,
        List.flatMap_cons, List.map_append]

/-! ### No line feeds within lines -/

theorem Token.inLine (t : Token) : '\n' ∉ t.chars :=
  fun hMem => absurd (t.unbroken.not_blank _ hMem) (by decide)

theorem Entry.inLine (e : Entry) : '\n' ∉ e.text :=
  e.not_mem_text e.requirement.path.inLine e.gap.inLine e.requirement.version.inLine
    e.behind.inLine (by decide) fun r _ => r.inLine

theorem Item.inLine (i : Item) : '\n' ∉ i.line := by
  cases i with
  | blank margin => exact margin.inLine
  | remark before r =>
      simp only [Item.line, List.mem_append, not_or]
      exact ⟨⟨before.inLine, by decide⟩, r.inLine⟩
  | entry before e =>
      rw [Item.line, List.mem_append, not_or]
      exact ⟨before.inLine, e.inLine⟩

theorem Part.inLine (part : Part) : ∀ line ∈ part.lines, '\n' ∉ line := by
  cases part with
  | other line inLine _ => exact List.forall_mem_singleton.2 inLine
  | single before gap e _ =>
      simp only [Part.lines, List.forall_mem_singleton, List.mem_append, not_or]
      exact ⟨before.inLine, ⟨by decide, gap.inLine⟩, e.inLine⟩
  | block before behind items beforeEnd behindEnd =>
      rw [Part.lines, List.forall_mem_cons, List.forall_mem_append, List.forall_mem_map,
        List.forall_mem_singleton]
      simp only [List.mem_append, not_or]
      exact ⟨⟨⟨before.inLine, by decide⟩, behind.inLine⟩, fun i _ => i.inLine,
        ⟨beforeEnd.inLine, by decide⟩, behindEnd.inLine⟩

/-- A description is read as the dependencies of its entries, in their order. -/
theorem ofGoMod_text_eq (d : Description) : ofGoMod d.text = d.entries.map Entry.dependency := by
  have hInLine : ∀ line ∈ d.flatMap Part.lines, '\n' ∉ line := by
    intro line hLine
    obtain ⟨part, _, hPart⟩ := List.mem_flatMap.1 hLine
    exact part.inLine line hPart
  rw [← requirements_parts, ofGoMod, text, String.toList_ofList]
  rcases map_trimBoth_lines_intercalate hInLine with hSame | hMore
  · rw [hSame]
  · rw [hMore, requirements_concat_nil]

/-- An entry is read as it was meant unless a comment is glued to its version. -/
theorem Entry.dependency_eq_iff (e : Entry) :
    e.dependency = e.requirement.dependency ↔ e.glued = false := by
  rw [Entry.dependency, Requirement.dependency, Prod.mk.injEq, and_iff_right rfl,
    String.ofList_inj]
  constructor
  · intro hSame
    by_contra hNot
    obtain ⟨front, hFront, hVersion, _, _⟩ := e.exists_of_glued (by simpa using hNot)
    rw [hVersion, hFront] at hSame
    simp at hSame
  · intro hGlued
    simp [Entry.version, hGlued]

/-- An entry is found for each requirement of a description and for nothing else, in order, in
whatever layout it is written, and these are exactly the requirements unless a comment is right
behind a version that ends with a slash. -/
theorem ofGoMod_text (d : Description) :
    ofGoMod d.text = d.entries.map Entry.dependency ∧
    (ofGoMod d.text = d.requirements.map Requirement.dependency ↔
      ∀ e ∈ d.entries, e.glued = false) := by
  refine ⟨ofGoMod_text_eq d, ?_⟩
  rw [ofGoMod_text_eq, requirements, List.map_map, List.map_inj_left]
  exact forall₂_congr fun e _ => e.dependency_eq_iff

/-- A module, and a version that ends with a slash. -/
def slashed : Requirement :=
  ⟨⟨['a'], unbroken_of_all (by decide) rfl, by decide, by decide, by decide⟩,
    ⟨['v', '/'], unbroken_of_all (by decide) rfl, by decide, by decide, by decide⟩, by decide⟩

/-- Requirements in and out of a block, with comments, and another block. -/
def mixed : Description :=
  let tab := Margin.ofChars ['\t'] rfl
  let other : Requirement :=
    ⟨⟨['b'], unbroken_of_all (by decide) rfl, by decide, by decide, by decide⟩,
      ⟨['v'], unbroken_of_all (by decide) rfl, by decide, by decide, by decide⟩, by decide⟩
  [.other "module m".toList (by decide) (by decide),
    .single tab .nothing ⟨slashed, .space, by decide, .space, some ⟨['x'], by decide⟩⟩ (by decide),
    .other "replace (".toList (by decide) (by decide),
    .other "\tb v => a".toList (by decide) (by decide),
    .other ")".toList (by decide) (by decide),
    .block .nothing .space
      [.remark tab ⟨"(b)".toList, by decide⟩, .blank tab,
        .entry tab ⟨other, tab, by decide, .nothing, some ⟨['y'], by decide⟩⟩] .nothing .nothing]

theorem ofGoMod_text_mixed :
    mixed.text = "module m\n\trequire a v/ //x\nreplace (\n\tb v => a\n)\n" ++
      "require ( \n\t//(b)\n\t\n\tb\tv//y\n)" ∧
    ofGoMod mixed.text = mixed.requirements.map Requirement.dependency ∧
    mixed.requirements.map Requirement.dependency = [("a", "v/"), ("b", "v")] := by
  refine ⟨by decide +kernel, (ofGoMod_text mixed).2.2 (by decide), by decide⟩

/-- A comment right behind a version that ends with a slash. -/
def glued : Description :=
  [.single .nothing .nothing ⟨slashed, .space, by decide, .nothing, some ⟨['x'], by decide⟩⟩
    (by decide)]

/-- The comment takes the slash of the version, and an indented line of another block is taken for a
requirement. -/
theorem ofGoMod_misreads : glued.text = "require a v///x" ∧
    glued.requirements.map Requirement.dependency = [("a", "v/")] ∧
    ofGoMod glued.text = [("a", "v")] ∧
    ofGoMod "exclude (\n\trequire v\n)\n" = [("v", "")] := by
  decide +kernel

end Description

end SourceSurvey.Manifest
