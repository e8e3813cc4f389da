import SourceSurvey.Manifest
import SourceSurvey.Proofs.Text.Word

/-!
Comments in module descriptions. A comment is cut off a line only where a requirement is read from
it, after it has been decided what the line is. So a comment changes nothing, unless it stands on the
line that opens or closes a block, has a bracket in it, or follows a lone `require`.
-/

namespace SourceSurvey.Manifest

open Text

def slashes : List Char := "//".toList

/-- A line without its comment and the blanks around it. -/
def code (line : List Char) : List Char := trimBoth isBlank (beforeInfix slashes line)

/-- The text with every line cut at its first two slashes. -/
def withoutComments (content : String) : String :=
  String.ofList (['\n'].intercalate ((content.toList.splitOn '\n').map (beforeInfix slashes)))

/-! ### The effect of one line -/

/-- Whether the lines behind a line are in a block, and what the line itself requires. -/
def lineEffect (inBlock : Bool) (line : List Char) : Bool × List Dependency :=
  if line.isEmpty ∨ slashes.isPrefixOf line then (inBlock, [])
  else if line = "require (".toList then (true, [])
  else if line = [')'] then (false, [])
  else if require.isPrefixOf line then
    let required := line.drop require.length
    (inBlock, if required.contains '(' then [] else (requireLine? required).toList)
  else (inBlock, if inBlock then (requireLine? line).toList else [])

/-- A line is read by itself. All that the lines behind it learn is whether they are in a block. -/
theorem requirements_cons (inBlock : Bool) (line : List Char) (rest : List (List Char)) :
    requirements inBlock (line :: rest) =
      (lineEffect inBlock line).2 ++ requirements (lineEffect inBlock line).1 rest := by
  rw [requirements, lineEffect]
  simp only [slashes]
  split
  · rfl
  · split
    · rfl
    · split
      · rfl
      · split <;> rfl

/-- An empty last line requires nothing. -/
theorem requirements_concat_nil (inBlock : Bool) (lines : List (List Char)) :
    requirements inBlock (lines ++ [[]]) = requirements inBlock lines := by
  induction lines generalizing inBlock with
  | nil => simp [requirements]
  | cons line rest ih => rw [List.cons_append, requirements_cons, requirements_cons, ih]

/-- A line that begins with "require" and a blank and does not open a block. -/
theorem lineEffect_require (inBlock : Bool) {required : List Char}
    (hOpening : require ++ required ≠ "require (".toList) :
    lineEffect inBlock (require ++ required) =
      (inBlock, if required.contains '(' then [] else (requireLine? required).toList) := by
  obtain ⟨rest, hRest⟩ : ∃ rest, require = 'r' :: rest := ⟨"equire ".toList, by decide⟩
  have hNot : ¬((require ++ required).isEmpty = true ∨
      slashes.isPrefixOf (require ++ required) = true) := by
    have hSlashes : slashes = ['/', '/'] := by decide
    rw [hRest, hSlashes]
    simp
  have hClosing : require ++ required ≠ [')'] := by
    rw [hRest]
    exact fun hSame => absurd (List.cons.inj hSame).1 (by decide)
  have hStart : require.isPrefixOf (require ++ required) = true :=
    List.isPrefixOf_iff_prefix.2 (List.prefix_append _ _)
  simp only [lineEffect, if_neg hNot, if_neg hOpening, if_neg hClosing, if_pos hStart, List.drop_left]

/-- A line that has none of the marks. -/
theorem lineEffect_other (inBlock : Bool) {line : List Char} (hNil : line ≠ [])
    (hSlashes : ¬slashes <+: line) (hClosing : line ≠ [')']) (hRequire : ¬require <+: line) :
    lineEffect inBlock line = (inBlock, if inBlock then (requireLine? line).toList else []) := by
  have hNot : ¬(line.isEmpty = true ∨ slashes.isPrefixOf line = true) := by
    rw [List.isPrefixOf_iff_prefix, List.isEmpty_iff, not_or]
    exact ⟨hNil, hSlashes⟩
  have hOpening : line ≠ "require (".toList := by
    rintro rfl
    exact absurd (by decide) hRequire
  rw [List.isPrefixOf_iff_prefix.not.symm] at hRequire
  rw [lineEffect, if_neg hNot, if_neg hOpening, if_neg hClosing, if_neg hRequire]

/-- The comment of a line keeps it from being taken for what it is. -/
def Misread (inBlock : Bool) (line : List Char) : Prop :=
  -- it does not open a block
  (inBlock = false ∧ code line = "require (".toList ∧ line ≠ code line) ∨
  -- it does not close the block but counts as a requirement in it
  (inBlock = true ∧ code line = [')'] ∧ line ≠ code line) ∨
  -- the bracket in the comment counts as one of the requirement
  (require <+: code line ∧ '(' ∉ code line ∧ '(' ∈ line) ∨
  -- it requires nothing, rather than something called "require"
  (inBlock = true ∧ code line = "require".toList ∧ require <+: line)

instance (inBlock : Bool) (line : List Char) : Decidable (Misread inBlock line) :=
  inferInstanceAs (Decidable (_ ∨ _))

variable {line blanks behind : List Char} {inBlock : Bool}

/-! ### Lines with a comment -/

/-- What a line is made of, if it has no blanks around it and a comment. -/
structure Commented (line blanks behind : List Char) : Prop where
  line_eq : line = code line ++ blanks ++ slashes ++ behind
  cut_eq : beforeInfix slashes line = code line ++ blanks
  blank : ∀ c ∈ blanks, isBlank c = true
  trimmed : trimBoth isBlank line = line

/-- A line has a comment or it is code as a whole. -/
theorem code_eq_or_commented (h : trimBoth isBlank line = line) :
    code line = line ∨ ∃ blanks behind, Commented line blanks behind := by
  rcases eq_beforeInfix_append slashes line with hAll | ⟨behind, hLine⟩
  · left
    rw [code, hAll, h]
  · right
    obtain ⟨blanks, hBlanks, hCut⟩ :=
      exists_eq_trimBoth_append_of_prefix h (prefix_beforeInfix slashes line)
    exact ⟨blanks, behind, hLine.trans (by rw [hCut]; rfl), hCut, hBlanks, h⟩

/-- What a line requires is settled by the words before its comment. -/
theorem requireLine?_congr {other : List Char}
    (h : words (beforeInfix slashes line) = words (beforeInfix slashes other)) :
    requireLine? line = requireLine? other := by
  rw [slashes] at h
  rw [requireLine?, requireLine?, h]

/-- Something is required where there is a word. -/
theorem requireLine?_ne_none_of_words (h : words (beforeInfix slashes line) ≠ []) :
    requireLine? line ≠ none := by
  rw [slashes] at h
  rw [requireLine?]
  split
  · exact absurd ‹_› h
  · simp
  · simp

theorem not_prefix_slashes (h : beforeInfix slashes line = line) : ¬slashes <+: line := by
  intro hPrefix
  cases line with
  | nil => exact absurd (List.prefix_nil.1 hPrefix) (by decide)
  | cons c line =>
      rw [beforeInfix, if_pos (List.isPrefixOf_iff_prefix.2 hPrefix)] at h
      cases h

namespace Commented

variable (h : Commented line blanks behind)

include h

/-- What is left of a line without its comment has no slashes to cut. -/
theorem cut_code : beforeInfix slashes (code line) = code line := by
  apply @beforeInfix_left slashes (code line) blanks
  rw [← h.cut_eq, beforeInfix_beforeInfix]

theorem prefix_line : code line <+: line := ⟨blanks ++ slashes ++ behind, by simpa using h.line_eq.symm⟩

theorem slash_mem : '/' ∈ line := by
  rw [h.line_eq]
  simp [slashes]

theorem line_ne_nil : line ≠ [] := fun hLine => absurd (hLine ▸ h.slash_mem) List.not_mem_nil

theorem line_ne_code : line ≠ code line := by
  intro hSame
  have hLength := congrArg List.length (hSame.symm.trans h.line_eq)
  simp [slashes] at hLength

theorem line_ne_opening : line ≠ "require (".toList :=
  fun hLine => absurd (hLine ▸ h.slash_mem) (by decide)

theorem line_ne_closing : line ≠ [')'] :=
  fun hLine => absurd (hLine ▸ h.slash_mem) (by decide)

/-- A line begins with its comment just if there is no code on it. -/
theorem slashes_prefix_iff : slashes <+: line ↔ code line = [] := by
  constructor
  · intro hPrefix
    have hCut : beforeInfix slashes line = [] := by
      cases line with
      | nil => rfl
      | cons c line => rw [beforeInfix, if_pos (List.isPrefixOf_iff_prefix.2 hPrefix)]
    exact (List.append_eq_nil_iff.1 (h.cut_eq.symm.trans hCut)).1
  · intro hCode
    have hLine := h.line_eq
    rw [hCode, List.nil_append] at hLine
    cases blanks with
    | nil => exact ⟨behind, hLine.symm⟩
    | cons c blanks =>
        have hTrimmed := h.trimmed
        rw [hLine] at hTrimmed
        exact absurd (h.blank c List.mem_cons_self) (by simp [not_blank_of_trimBoth_eq hTrimmed])

/-- A requirement is read without its comment. -/
theorem requireLine?_eq : requireLine? line = requireLine? (code line) := by
  apply requireLine?_congr
  rw [h.cut_eq, h.cut_code, words_append_blanks h.blank]

/-- A line that begins with "require" and a blank does so without its comment, or that is all. -/
theorem require_prefix_cases (hPrefix : require <+: line) :
    require <+: code line ∨ code line = "require".toList := by
  have hCut : require <+: code line ++ blanks := by
    have hBoth : code line ++ blanks <+: line := ⟨slashes ++ behind, by simpa using h.line_eq.symm⟩
    rcases List.prefix_or_prefix_of_prefix hPrefix hBoth with hShort | ⟨rest, hRest⟩
    · exact hShort
    · cases rest with
      | nil => exact ⟨[], by simpa using hRest.symm⟩
      | cons c rest =>
          -- the comment would begin within the word
          obtain ⟨more, hMore⟩ := hPrefix
          rw [← hRest, List.append_assoc, List.append_assoc] at hMore
          have hLine := hMore.trans h.line_eq
          rw [List.append_assoc, List.append_assoc, List.append_cancel_left_eq,
            List.append_cancel_left_eq] at hLine
          have hSlash : c = '/' := (List.cons.inj hLine).1
          have hMem : '/' ∈ require := by
            rw [← hRest, hSlash]
            simp
          exact absurd hMem (by decide)
  rcases List.prefix_or_prefix_of_prefix hCut (List.prefix_append (code line) blanks) with
    hShort | ⟨rest, hRest⟩
  · exact .inl hShort
  · have hBlank : ∀ c ∈ rest, isBlank c = true := by
      rw [← hRest, List.prefix_append_right_inj] at hCut
      exact fun c hC => h.blank c (hCut.subset hC)
    have hTake : code line = require.take (code line).length := by rw [← hRest, List.take_left]
    have hDrop : rest = require.drop (code line).length := by rw [← hRest, List.drop_left]
    have hLength : (code line).length ≤ require.length := by
      rw [← hRest, List.length_append]
      exact Nat.le_add_right _ _
    have hEnd : ∀ n ≤ require.length, (require.drop n).all isBlank = true → n = 7 ∨ n = 8 := by
      decide
    rcases hEnd _ hLength (List.all_eq_true.2 (hDrop ▸ hBlank)) with hWord | hAll
    · right
      rw [hTake, hWord]
      decide
    · left
      rw [hTake, hAll]
      exact List.prefix_rfl

/-- Something is required where the line goes on behind "require" and a blank. -/
theorem requireLine?_ne_none {required : List Char} (hRequired : require ++ required = code line) :
    requireLine? required ≠ none := by
  have hCut : beforeInfix slashes required = required := by
    apply @beforeInfix_of_append _ slashes require
    rw [hRequired, h.cut_code]
  have hTrimmed : trimBoth isBlank (code line) = code line := trimBoth_trimBoth _ _
  apply requireLine?_ne_none_of_words
  rw [hCut]
  rcases List.eq_nil_or_concat required with hNil | ⟨before, c, hConcat⟩
  · have hBlank : trimBoth isBlank require ≠ require := by decide
    rw [hNil, List.append_nil] at hRequired
    exact absurd (hRequired ▸ hTrimmed) hBlank
  · rw [List.concat_eq_append] at hConcat
    rw [← hRequired, hConcat, ← List.append_assoc] at hTrimmed
    rw [hConcat]
    exact words_ne_nil (not_blank_of_trimBoth_concat_eq hTrimmed)
      (List.mem_append_right before List.mem_cons_self)

/-- Where a line begins with "require" and a blank before its comment, the comment matters if it has
a bracket and the line had none. -/
theorem lineEffect_ne_iff_of_require (hPrefix : require <+: code line)
    (hOpening : code line ≠ "require (".toList) :
    lineEffect inBlock (code line) ≠ lineEffect inBlock line ↔ '(' ∉ code line ∧ '(' ∈ line := by
  obtain ⟨required, hRequired⟩ := hPrefix
  have hLine : line = require ++ (required ++ blanks ++ slashes ++ behind) := by
    simpa [← hRequired] using h.line_eq
  have hCut : beforeInfix slashes (required ++ blanks ++ slashes ++ behind) = required ++ blanks := by
    apply @beforeInfix_of_append _ slashes require
    rw [← hLine, h.cut_eq, ← hRequired, List.append_assoc]
  have hCutCode : beforeInfix slashes required = required := by
    apply @beforeInfix_of_append _ slashes require
    rw [hRequired, h.cut_code]
  have hSame : requireLine? (required ++ blanks ++ slashes ++ behind) = requireLine? required := by
    apply requireLine?_congr
    rw [hCut, hCutCode, words_append_blanks h.blank]
  have hCodeEffect := lineEffect_require inBlock (by rwa [hRequired])
  have hLineEffect := lineEffect_require inBlock (by rw [← hLine]; exact h.line_ne_opening)
  rw [hRequired] at hCodeEffect
  rw [← hLine, hSame] at hLineEffect
  obtain ⟨dependency, hDependency⟩ := Option.ne_none_iff_exists'.1 (h.requireLine?_ne_none hRequired)
  have hBracket : ∀ cs : List Char, cs.contains '(' = true ↔ '(' ∈ require ++ cs := by
    intro cs
    rw [List.mem_append, List.contains_iff_mem]
    exact (or_iff_right (by decide)).symm
  rw [hCodeEffect, hLineEffect, hDependency]
  simp only [hBracket, hRequired, ← hLine]
  by_cases hCode : '(' ∈ code line
  · simp [hCode, h.prefix_line.subset hCode]
  · by_cases hMem : '(' ∈ line <;> simp [hCode, hMem]

/-- Behind a lone "require" and a blank there is nothing but the comment. -/
theorem lineEffect_of_word (hCode : code line = "require".toList) (hPrefix : require <+: line) :
    lineEffect inBlock line = (inBlock, []) := by
  have hWord : require = "require".toList ++ [' '] := by decide
  obtain ⟨rest, hRest⟩ := hPrefix
  obtain ⟨more, hMore⟩ : ∃ more, blanks = ' ' :: more := by
    have hBehind := hRest.trans h.line_eq
    rw [hCode, hWord, List.append_assoc, List.append_assoc, List.append_assoc,
      List.append_cancel_left_eq] at hBehind
    cases blanks with
    | nil =>
        have hSlashes : slashes = ['/', '/'] := by decide
        rw [hSlashes] at hBehind
        exact absurd (List.cons.inj hBehind).1 (by decide)
    | cons c more => exact ⟨more, by rw [(List.cons.inj hBehind).1]⟩
  have hCut : beforeInfix slashes rest = more := by
    apply @beforeInfix_of_append _ slashes require
    rw [hRest, h.cut_eq, hCode, hMore, hWord, List.append_assoc, List.singleton_append]
  have hNone : requireLine? rest = none := by
    have hWords : words (beforeInfix slashes rest) = [] := by
      rw [hCut]
      exact words_eq_nil fun c hC => h.blank c (hMore ▸ List.mem_cons_of_mem _ hC)
    rw [slashes] at hWords
    rw [requireLine?, hWords]
  rw [← hRest, lineEffect_require inBlock (by rw [hRest]; exact h.line_ne_opening), hNone]
  simp

/-- A line that opens a block opens none with a comment behind it. -/
theorem lineEffect_of_opening (hCode : code line = "require (".toList) :
    lineEffect inBlock line = (inBlock, []) := by
  have hWord : "require (".toList = require ++ ['('] := by decide
  have hLine : line = require ++ ('(' :: (blanks ++ slashes ++ behind)) := by
    simpa [hCode, hWord] using h.line_eq
  rw [hLine, lineEffect_require inBlock (by rw [← hLine]; exact h.line_ne_opening),
    List.contains_cons, beq_self_eq_true, Bool.true_or, if_pos rfl]

/-- A line that closes a block is one like any other with a comment behind it. -/
theorem lineEffect_of_closing (hCode : code line = [')']) :
    lineEffect inBlock line = (inBlock, if inBlock then [(")", "")] else []) := by
  have hSlashes : ¬slashes <+: line := by
    rw [h.slashes_prefix_iff, hCode]
    simp
  have hRequire : ¬require <+: line := by
    intro hPrefix
    rcases h.require_prefix_cases hPrefix with hCut | hCut
    · rw [hCode] at hCut
      exact absurd hCut (by decide)
    · rw [hCode] at hCut
      exact absurd hCut (by decide)
  have hRequired : requireLine? [')'] = some (")", "") := by decide
  rw [lineEffect_other inBlock h.line_ne_nil hSlashes h.line_ne_closing hRequire, h.requireLine?_eq,
    hCode, hRequired]
  rfl

/-! The comment of a line matters exactly if the line is misread: one case for each kind of line. -/

theorem ne_iff_of_empty (hCode : code line = []) :
    lineEffect inBlock (code line) ≠ lineEffect inBlock line ↔ Misread inBlock line := by
  have hSame : lineEffect inBlock (code line) = lineEffect inBlock line := by
    rw [hCode, lineEffect, lineEffect, if_pos (.inl rfl),
      if_pos (.inr (List.isPrefixOf_iff_prefix.2 (h.slashes_prefix_iff.2 hCode)))]
  have hRequire : ¬require <+: [] := by decide
  have hNot : ¬Misread inBlock line := by
    rw [Misread, hCode]
    rintro (⟨_, hOpening, _⟩ | ⟨_, hClosing, _⟩ | ⟨hPrefix, _⟩ | ⟨_, hWord, _⟩)
    · exact absurd hOpening (by decide)
    · exact absurd hClosing (by decide)
    · exact hRequire hPrefix
    · exact absurd hWord (by decide)
  exact ⟨fun hEffect => absurd hSame hEffect, fun hMisread => absurd hMisread hNot⟩

/-- The line that opens a block must be nothing else, so that no comment may stand on it. -/
theorem ne_iff_of_opening (hCode : code line = "require (".toList) :
    lineEffect inBlock (code line) ≠ lineEffect inBlock line ↔ Misread inBlock line := by
  have hCodeEffect : lineEffect inBlock "require (".toList = (true, []) := by
    cases inBlock <;> decide
  have hClosing : "require (".toList ≠ [')'] := by decide
  have hBracket : '(' ∈ "require (".toList := by decide
  have hWord : "require (".toList ≠ "require".toList := by decide
  have hDifferent := h.line_ne_code
  rw [Misread, h.lineEffect_of_opening hCode, hCode, hCodeEffect]
  rw [hCode] at hDifferent
  cases inBlock <;> simp [-String.reduceToList, hDifferent, hClosing, hBracket, hWord]

/-- The same is true of the line that closes it. -/
theorem ne_iff_of_closing (hCode : code line = [')']) :
    lineEffect inBlock (code line) ≠ lineEffect inBlock line ↔ Misread inBlock line := by
  have hCodeEffect : lineEffect inBlock [')'] = (false, []) := by cases inBlock <;> decide
  have hOpening : [')'] ≠ "require (".toList := by decide
  have hRequire : ¬require <+: [')'] := by decide
  have hWord : [')'] ≠ "require".toList := by decide
  have hDifferent := h.line_ne_code
  rw [Misread, h.lineEffect_of_closing hCode, hCode, hCodeEffect]
  rw [hCode] at hDifferent
  cases inBlock <;> simp [-String.reduceToList, hDifferent, hOpening, hRequire, hWord]

/-- On a line of its own a requirement is given up when it has a bracket, even in its comment. -/
theorem ne_iff_of_require (hPrefix : require <+: code line)
    (hOpening : code line ≠ "require (".toList) :
    lineEffect inBlock (code line) ≠ lineEffect inBlock line ↔ Misread inBlock line := by
  have hClosing : code line ≠ [')'] := by
    intro hCode
    rw [hCode] at hPrefix
    exact absurd hPrefix (by decide)
  have hWord : code line ≠ "require".toList := by
    intro hCode
    rw [hCode] at hPrefix
    exact absurd hPrefix (by decide)
  rw [h.lineEffect_ne_iff_of_require hPrefix hOpening, Misread]
  simp [-String.reduceToList, hOpening, hClosing, hPrefix, hWord]

/-- All other lines mean the same with their comment. -/
theorem ne_iff_of_other (hNil : code line ≠ []) (hOpening : code line ≠ "require (".toList)
    (hClosing : code line ≠ [')']) (hRequire : ¬require <+: code line) :
    lineEffect inBlock (code line) ≠ lineEffect inBlock line ↔ Misread inBlock line := by
  have hCodeEffect :=
    lineEffect_other inBlock hNil (not_prefix_slashes h.cut_code) hClosing hRequire
  by_cases hStart : require <+: line
  · -- the blank behind the word belongs to the comment
    have hCode := (h.require_prefix_cases hStart).resolve_left hRequire
    have hRequired : requireLine? "require".toList = some ("require", "") := by decide
    rw [hCodeEffect, h.lineEffect_of_word hCode hStart, Misread, hCode, hRequired]
    rw [hCode] at hOpening hClosing hRequire
    cases inBlock <;> simp [-String.reduceToList, hOpening, hClosing, hRequire, hStart]
  · have hSlashes : ¬slashes <+: line := by rwa [h.slashes_prefix_iff]
    rw [hCodeEffect, lineEffect_other inBlock h.line_ne_nil hSlashes h.line_ne_closing hStart,
      h.requireLine?_eq, Misread]
    simp [-String.reduceToList, hOpening, hClosing, hRequire, hStart]

/-- The comment of a line makes a difference just in the cases that are counted as misread. -/
theorem lineEffect_ne_iff :
    lineEffect inBlock (code line) ≠ lineEffect inBlock line ↔ Misread inBlock line := by
  by_cases hNil : code line = []
  · exact h.ne_iff_of_empty hNil
  by_cases hOpening : code line = "require (".toList
  · exact h.ne_iff_of_opening hOpening
  by_cases hClosing : code line = [')']
  · exact h.ne_iff_of_closing hClosing
  by_cases hRequire : require <+: code line
  · exact h.ne_iff_of_require hRequire hOpening
  · exact h.ne_iff_of_other hNil hOpening hClosing hRequire

end Commented

/-- A comment makes a difference to a line exactly if the line is misread. -/
theorem lineEffect_code_ne_iff (h : trimBoth isBlank line = line) :
    lineEffect inBlock (code line) ≠ lineEffect inBlock line ↔ Misread inBlock line := by
  rcases code_eq_or_commented h with hCode | ⟨blanks, behind, h⟩
  · have hWord : ¬require <+: "require".toList := by decide
    rw [Misread, hCode]
    refine ⟨fun hDifferent => absurd rfl hDifferent, ?_⟩
    rintro (⟨_, _, hLine⟩ | ⟨_, _, hLine⟩ | ⟨_, hNot, hMem⟩ | ⟨_, hWhole, hPrefix⟩)
    · exact absurd rfl hLine
    · exact absurd rfl hLine
    · exact absurd hMem hNot
    · exact absurd (hWhole ▸ hPrefix) hWord
  · exact h.lineEffect_ne_iff

/-- Without its comment a line counts as before, whatever stands behind it, exactly if it is not
misread. -/
theorem requirements_code_iff (h : trimBoth isBlank line = line) :
    (∀ rest, requirements inBlock (code line :: rest) = requirements inBlock (line :: rest)) ↔
      ¬Misread inBlock line := by
  rw [← lineEffect_code_ne_iff h, not_ne_iff]
  constructor
  · intro hSame
    have hNone : ∀ b, requirements b [] = [] := fun _ => rfl
    have hWord : ∀ b : Bool, requirements b [['x']] = if b then [("x", "")] else [] := by decide
    have hRequired : (lineEffect inBlock (code line)).2 = (lineEffect inBlock line).2 := by
      have hAlone := hSame []
      rwa [requirements_cons, requirements_cons _ line, hNone, hNone, List.append_nil,
        List.append_nil] at hAlone
    -- a word behind the line tells whether it is in a block
    have hState : (lineEffect inBlock (code line)).1 = (lineEffect inBlock line).1 := by
      have hBehind := hSame [['x']]
      rw [requirements_cons, requirements_cons _ line, hRequired, List.append_cancel_left_eq,
        hWord, hWord] at hBehind
      revert hBehind
      generalize (lineEffect inBlock (code line)).1 = b
      generalize (lineEffect inBlock line).1 = b'
      revert b b'
      decide
    exact Prod.ext hState hRequired
  · intro hEffect rest
    rw [requirements_cons, requirements_cons, hEffect]

/-! ### All lines -/

/-- No line is misread, each taken in or out of a block as the lines before it leave it. -/
inductive NoneMisread : Bool → List (List Char) → Prop where
  | nil {inBlock : Bool} : NoneMisread inBlock []
  | cons {inBlock : Bool} {line : List Char} {rest : List (List Char)} :
    ¬Misread inBlock line → NoneMisread (lineEffect inBlock line).1 rest →
      NoneMisread inBlock (line :: rest)

theorem noneMisread_cons_iff {rest : List (List Char)} : NoneMisread inBlock (line :: rest) ↔
    ¬Misread inBlock line ∧ NoneMisread (lineEffect inBlock line).1 rest :=
  ⟨fun | .cons hLine hRest => ⟨hLine, hRest⟩, fun h => .cons h.1 h.2⟩

instance decidableNoneMisread : (inBlock : Bool) → (lines : List (List Char)) →
    Decidable (NoneMisread inBlock lines)
  | _, [] => isTrue .nil
  | inBlock, line :: rest =>
    have := decidableNoneMisread (lineEffect inBlock line).1 rest
    decidable_of_iff' _ noneMisread_cons_iff

/-- An empty last line is not misread. -/
theorem noneMisread_concat_nil {lines : List (List Char)} (h : NoneMisread inBlock lines) :
    NoneMisread inBlock (lines ++ [[]]) := by
  induction h with
  | nil =>
      rename_i inBlock
      exact .cons (by cases inBlock <;> decide) .nil
  | cons hLine _ ih => exact .cons hLine ih

/-- If no line is misread, comments do not matter at all. -/
theorem requirements_map_code {lines : List (List Char)}
    (hTrimmed : ∀ line ∈ lines, trimBoth isBlank line = line) (h : NoneMisread inBlock lines) :
    requirements inBlock (lines.map code) = requirements inBlock lines := by
  induction h with
  | nil => rfl
  | cons hNot _ ih =>
      obtain ⟨hLine, hRest⟩ := List.forall_mem_cons.1 hTrimmed
      rw [List.map_cons, (requirements_code_iff hLine).2 hNot, requirements_cons, requirements_cons,
        ih hRest]

theorem not_mem_slashes_of_isBlank {c : Char} (h : isBlank c = true) : c ∉ slashes := by
  intro hMem
  have hSlash : c = '/' := by simpa [slashes] using hMem
  rw [hSlash] at h
  exact absurd h (by decide)

/-- A piece of text is cut and trimmed to the code of the trimmed piece. -/
theorem trimBoth_cut (piece : List Char) :
    trimBoth isBlank (beforeInfix slashes piece) = code (trimBoth isBlank piece) := by
  obtain ⟨before, behind, hBefore, hBehind, hPiece⟩ := exists_eq_append_trimBoth isBlank piece
  have hCut : beforeInfix slashes piece =
      before ++ beforeInfix slashes (trimBoth isBlank piece ++ behind) := by
    conv_lhs => rw [hPiece, List.append_assoc]
    exact beforeInfix_append_left (by decide) fun c hC => not_mem_slashes_of_isBlank (hBefore c hC)
  rw [hCut, trimBoth_append_left hBefore, code]
  rcases beforeInfix_append_right (fun c hC => not_mem_slashes_of_isBlank (hBehind c hC))
    (trimBoth isBlank piece) with hEnd | hEnd
  · rw [hEnd]
  · rw [hEnd, trimBoth_append_right hBehind]

/-- The empty piece behind the last line feed requires nothing. -/
theorem ofGoMod_eq (content : String) :
    ofGoMod content = requirements false ((content.toList.splitOn '\n').map (trimBoth isBlank)) := by
  rw [ofGoMod]
  rcases map_trimBoth_lines content.toList with hSame | hMore
  · rw [hSame]
  · rw [hMore, requirements_concat_nil]

/-- To take out the comments leaves the lines. -/
theorem splitOn_withoutComments (content : String) :
    (withoutComments content).toList.splitOn '\n' =
      (content.toList.splitOn '\n').map (beforeInfix slashes) := by
  rw [withoutComments, String.toList_ofList, List.splitOn_intercalate]
  · intro piece hPiece hBreak
    obtain ⟨whole, hWhole, rfl⟩ := List.mem_map.1 hPiece
    exact not_mem_of_mem_splitOn hWhole ((prefix_beforeInfix slashes whole).subset hBreak)
  · simp [List.splitOn_ne_nil]

/-- Comments change nothing if no line is misread, and a line that is misread counts for something
else without its comment. -/
theorem ofGoMod_withoutComments (content : String) :
    (NoneMisread false ((lines content.toList).map (trimBoth isBlank)) →
      ofGoMod (withoutComments content) = ofGoMod content) ∧
    ∀ line ∈ (lines content.toList).map (trimBoth isBlank), ∀ inBlock,
      (∀ rest, requirements inBlock (code line :: rest) = requirements inBlock (line :: rest)) ↔
        ¬Misread inBlock line := by
  have hTrimmed : ∀ (pieces : List (List Char)), ∀ line ∈ pieces.map (trimBoth isBlank),
      trimBoth isBlank line = line := by
    rintro pieces line hLine
    obtain ⟨piece, _, rfl⟩ := List.mem_map.1 hLine
    exact trimBoth_trimBoth _ _
  refine ⟨fun hNone => ?_, fun line hLine inBlock => requirements_code_iff (hTrimmed _ line hLine)⟩
  have hPieces : NoneMisread false ((content.toList.splitOn '\n').map (trimBoth isBlank)) := by
    rcases map_trimBoth_lines content.toList with hSame | hMore
    · rwa [hSame]
    · rw [hMore]
      exact noneMisread_concat_nil hNone
  have hCode : ((content.toList.splitOn '\n').map (beforeInfix slashes)).map (trimBoth isBlank) =
      ((content.toList.splitOn '\n').map (trimBoth isBlank)).map code := by
    simp only [List.map_map]
    exact List.map_congr_left fun piece _ => trimBoth_cut piece
  rw [ofGoMod_eq, ofGoMod_eq, splitOn_withoutComments, hCode,
    requirements_map_code (hTrimmed _) hPieces]

/-- Comments on lines that are not misread, and one on a line that would open a block. -/
theorem ofGoMod_withoutComments_indirect :
    NoneMisread false ((lines "require (\n\tb v2 // indirect\n)\n".toList).map (trimBoth isBlank)) ∧
    ofGoMod (withoutComments "require (\n\tb v2 // indirect\n)\n") =
      ofGoMod "require (\n\tb v2 // indirect\n)\n" ∧
    ofGoMod "require (\n\tb v2 // indirect\n)\n" = [("b", "v2")] ∧
    ¬(∀ rest, requirements false (code "require ( // direct".toList :: rest) =
      requirements false ("require ( // direct".toList :: rest)) ∧
    ofGoMod (withoutComments "require ( // direct\n\tb v2\n)\n") = [("b", "v2")] ∧
    ofGoMod "require ( // direct\n\tb v2\n)\n" = [] := by
  have hNone : NoneMisread false
      ((lines "require (\n\tb v2 // indirect\n)\n".toList).map (trimBoth isBlank)) := by
    decide +kernel
  have hMisread : Misread false "require ( // direct".toList := by decide +kernel
  have hLine : "require ( // direct".toList ∈
      (lines "require ( // direct\n\tb v2\n)\n".toList).map (trimBoth isBlank) := by
    decide +kernel
  have hOpening := ((ofGoMod_withoutComments _).2 _ hLine false).not_left.2 hMisread
  refine ⟨hNone, (ofGoMod_withoutComments _).1 hNone, ?_, hOpening, ?_, ?_⟩
  · decide +kernel
  · decide +kernel
  · decide +kernel

end SourceSurvey.Manifest
