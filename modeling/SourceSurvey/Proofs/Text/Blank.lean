import SourceSurvey.Text.Blank
import Mathlib.Data.List.DropRight

/-!
Texts taken apart at line breaks and blanks. What is trimmed off a text are blanks, which belong to
no word, and a text is taken apart as `List.splitOnP` does it, so that its laws apply.
-/

namespace SourceSurvey.Text

variable {p : Char → Bool} {cs blanks line : List Char} {c : Char}

/-! ### Trimming -/

theorem trimBoth_append_left (h : ∀ c ∈ blanks, p c = true) :
    trimBoth p (blanks ++ cs) = trimBoth p cs := by
  rw [trimBoth, trimBoth, List.dropWhile_append_of_pos h]

theorem trimBoth_append_right (h : ∀ c ∈ blanks, p c = true) :
    trimBoth p (cs ++ blanks) = trimBoth p cs := by
  have hBlanks : ∀ c ∈ blanks.reverse, p c = true := fun c hC => h c (List.mem_reverse.1 hC)
  rw [trimBoth, trimBoth, List.dropWhile_append]
  split
  · rename_i hAll
    rw [List.dropWhile_eq_nil_iff.2 h, List.isEmpty_iff.1 hAll]
  · rw [List.reverse_append, List.dropWhile_append_of_pos hBlanks]

/-- A text is what is left of it when it is trimmed, between blanks. -/
theorem exists_eq_append_trimBoth (p : Char → Bool) (cs : List Char) :
    ∃ before behind, (∀ c ∈ before, p c = true) ∧ (∀ c ∈ behind, p c = true) ∧
      cs = before ++ trimBoth p cs ++ behind := by
  refine ⟨cs.takeWhile p, (cs.dropWhile p).rtakeWhile p, fun c => List.mem_takeWhile_imp,
    fun c => List.mem_rtakeWhile_imp, ?_⟩
  have hEnd : trimBoth p cs ++ (cs.dropWhile p).rtakeWhile p = cs.dropWhile p :=
    List.rdropWhile_append_rtakeWhile
  rw [List.append_assoc, hEnd, List.takeWhile_append_dropWhile]

/-- Of a text that does not begin with a blank, blanks are trimmed off the end only. -/
theorem exists_eq_trimBoth_append (hFirst : ∀ c ∈ cs.head?, p c = false) :
    ∃ blanks, (∀ c ∈ blanks, p c = true) ∧ cs = trimBoth p cs ++ blanks := by
  obtain ⟨before, behind, hBefore, hBehind, hText⟩ := exists_eq_append_trimBoth p cs
  cases before with
  | nil => exact ⟨behind, hBehind, hText⟩
  | cons c before =>
      have hBlank := hBefore c List.mem_cons_self
      rw [hFirst c (by rw [hText]; rfl)] at hBlank
      cases hBlank

/-- Trimming once is enough. -/
theorem trimBoth_trimBoth (p : Char → Bool) (cs : List Char) :
    trimBoth p (trimBoth p cs) = trimBoth p cs := by
  obtain ⟨before, behind, hBefore, hBehind, hCs⟩ := exists_eq_append_trimBoth p cs
  calc trimBoth p (trimBoth p cs)
      = trimBoth p (before ++ trimBoth p cs ++ behind) := by
        rw [trimBoth_append_right hBehind, trimBoth_append_left hBefore]
    _ = trimBoth p cs := by rw [← hCs]

/-- A text that neither begins nor ends with a blank. -/
theorem trimBoth_eq_self (hFirst : ∀ c ∈ cs.head?, p c = false)
    (hLast : ∀ c ∈ cs.getLast?, p c = false) : trimBoth p cs = cs := by
  have hDrop : ∀ {cs : List Char}, (∀ c ∈ cs.head?, p c = false) → cs.dropWhile p = cs := by
    intro cs h
    cases cs with
    | nil => rfl
    | cons c cs => rw [List.dropWhile_cons_of_neg (by simp [h c rfl])]
  rw [trimBoth, hDrop hFirst, hDrop (List.head?_reverse ▸ hLast), List.reverse_reverse]

/-- What is left after trimming stands in the text as it is. -/
theorem trimBoth_isInfix (p : Char → Bool) (cs : List Char) : trimBoth p cs <:+: cs := by
  obtain ⟨before, behind, _, _, hCs⟩ := exists_eq_append_trimBoth p cs
  exact ⟨before, behind, hCs.symm⟩

theorem length_trimBoth_le (p : Char → Bool) (cs : List Char) :
    (trimBoth p cs).length ≤ cs.length :=
  (trimBoth_isInfix p cs).length_le

/-- A trimmed text does not begin with a blank. -/
theorem not_blank_of_trimBoth_eq (h : trimBoth p (c :: cs) = c :: cs) : p c = false := by
  by_contra hBlank
  rw [Bool.not_eq_false] at hBlank
  have hTrim : trimBoth p ([c] ++ cs) = trimBoth p cs := trimBoth_append_left (by simpa using hBlank)
  have hLength := length_trimBoth_le p cs
  rw [← hTrim, List.singleton_append, h, List.length_cons] at hLength
  omega

/-- Nor does any text that it begins with, so that blanks are trimmed off the end of this one only. -/
theorem exists_eq_trimBoth_append_of_prefix {front : List Char} (h : trimBoth p cs = cs)
    (hFront : front <+: cs) :
    ∃ blanks, (∀ c ∈ blanks, p c = true) ∧ front = trimBoth p front ++ blanks := by
  obtain ⟨rest, rfl⟩ := hFront
  apply exists_eq_trimBoth_append
  intro c hC
  obtain ⟨others, rfl⟩ := List.head?_eq_some_iff.1 hC
  exact not_blank_of_trimBoth_eq h

/-- A trimmed text does not end with a blank. -/
theorem not_blank_of_trimBoth_concat_eq (h : trimBoth p (cs ++ [c]) = cs ++ [c]) : p c = false := by
  by_contra hBlank
  rw [Bool.not_eq_false] at hBlank
  have hTrim : trimBoth p (cs ++ [c]) = trimBoth p cs := trimBoth_append_right (by simpa using hBlank)
  have hLength := length_trimBoth_le p cs
  rw [← hTrim, h, List.length_append, List.length_singleton] at hLength
  omega

/-- A return at the end of a line is a blank like others. -/
theorem trimBoth_dropReturn (line : List Char) :
    trimBoth isBlank (dropReturn line) = trimBoth isBlank line := by
  rw [dropReturn]
  split
  · rename_i hLast
    obtain ⟨before, rfl⟩ := List.getLast?_eq_some_iff.1 hLast
    rw [List.dropLast_concat, trimBoth_append_right (List.forall_mem_singleton.2 rfl)]
  · rfl

/-! ### Pieces -/

theorem splitBy_eq_splitOnP (p : Char → Bool) (cs : List Char) : splitBy p cs = cs.splitOnP p := by
  induction cs with
  | nil => rfl
  | cons c cs ih =>
      rw [splitBy, List.splitOnP_cons_eq_if_modifyHead, ih]
      split
      · rfl
      · obtain ⟨piece, rest, hPieces⟩ := List.exists_cons_of_ne_nil (List.splitOnP_ne_nil p cs)
        rw [hPieces]
        rfl

/-- To split at one character is what the library calls it. -/
theorem splitBy_eq_splitOn (c : Char) (cs : List Char) : splitBy (· = c) cs = cs.splitOn c := by
  rw [splitBy_eq_splitOnP, List.splitOn_eq_splitOnP]
  congr 1

/-- No piece has the separator in it. -/
theorem not_mem_of_mem_splitOn {piece : List Char} (h : piece ∈ cs.splitOn c) : c ∉ piece := by
  induction cs generalizing piece with
  | nil =>
      rw [List.splitOn_nil, List.mem_singleton] at h
      simp [h]
  | cons d cs ih =>
      rw [List.splitOn_cons_eq_if_modifyHead] at h
      split at h
      · rcases List.mem_cons.1 h with rfl | hRest
        · exact List.not_mem_nil
        · exact ih hRest
      · rename_i hOther
        obtain ⟨first, rest, hPieces⟩ := List.exists_cons_of_ne_nil (List.splitOn_ne_nil c cs)
        rw [hPieces, List.modifyHead_cons, List.mem_cons] at h
        rcases h with rfl | hRest
        · have hFirst := ih (hPieces ▸ List.mem_cons_self)
          rw [List.mem_cons, not_or]
          exact ⟨fun hSame => hOther (by simp [hSame]), hFirst⟩
        · exact ih (hPieces ▸ List.mem_cons_of_mem _ hRest)

theorem infix_of_mem_splitBy {piece : List Char} (h : piece ∈ splitBy p cs) : piece <:+: cs := by
  suffices hPieces : ∃ first rest, splitBy p cs = first :: rest ∧ first <+: cs ∧
      ∀ piece ∈ rest, piece <:+: cs by
    obtain ⟨first, rest, hSplit, hFirst, hRest⟩ := hPieces
    rw [hSplit, List.mem_cons] at h
    rcases h with rfl | hLater
    · exact hFirst.isInfix
    · exact hRest piece hLater
  clear h
  induction cs with
  | nil => exact ⟨[], [], rfl, List.prefix_rfl, by simp⟩
  | cons c cs ih =>
      obtain ⟨first, rest, hSplit, hFirst, hRest⟩ := ih
      have hLater : ∀ piece ∈ rest, piece <:+: c :: cs :=
        fun piece hPiece => (hRest piece hPiece).trans (List.suffix_cons c cs).isInfix
      rw [splitBy, hSplit]
      split
      · refine ⟨[], first :: rest, rfl, List.nil_prefix, List.forall_mem_cons.2 ⟨?_, hLater⟩⟩
        exact hFirst.isInfix.trans (List.suffix_cons c cs).isInfix
      · exact ⟨c :: first, rest, rfl, List.cons_prefix_cons.2 ⟨rfl, hFirst⟩, hLater⟩

/-- Trimmed, the lines of a text are its pieces between line feeds, but for an empty one at the
end. -/
theorem map_trimBoth_lines (cs : List Char) :
    (cs.splitOn '\n').map (trimBoth isBlank) = (lines cs).map (trimBoth isBlank) ∨
      (cs.splitOn '\n').map (trimBoth isBlank) = (lines cs).map (trimBoth isBlank) ++ [[]] := by
  have hReturn : ∀ pieces : List (List Char), (pieces.map dropReturn).map (trimBoth isBlank) =
      pieces.map (trimBoth isBlank) := by
    intro pieces
    rw [List.map_map]
    exact List.map_congr_left fun line _ => trimBoth_dropReturn line
  obtain ⟨before, last, hPieces⟩ : ∃ before last, cs.splitOn '\n' = before ++ [last] :=
    ⟨_, _, (List.dropLast_append_getLast (List.splitOn_ne_nil '\n' cs)).symm⟩
  rw [lines, splitBy_eq_splitOn, hPieces, List.getLast?_concat, List.dropLast_concat]
  cases last with
  | nil =>
      right
      rw [List.map_append, hReturn]
      rfl
  | cons c rest =>
      left
      rw [List.map_append, List.map_append, hReturn]

/-! ### Words -/

theorem words_eq_nil (h : ∀ c ∈ blanks, isBlank c = true) : words blanks = [] := by
  rw [words, splitBy_eq_splitOnP]
  induction blanks with
  | nil => rfl
  | cons c blanks ih =>
      obtain ⟨hC, hBlanks⟩ := List.forall_mem_cons.1 h
      rw [List.splitOnP_cons_eq_if_modifyHead, if_pos hC]
      exact ih hBlanks

/-- No word goes across a blank. -/
theorem words_append_blank (h : isBlank c = true) (xs ys : List Char) :
    words (xs ++ c :: ys) = words xs ++ words ys := by
  simp only [words, splitBy_eq_splitOnP, List.splitOnP_append_cons xs ys h, List.filter_append]

/-- Blanks behind a text belong to no word. -/
theorem words_append_blanks (h : ∀ c ∈ blanks, isBlank c = true) (cs : List Char) :
    words (cs ++ blanks) = words cs := by
  cases blanks with
  | nil => rw [List.append_nil]
  | cons c blanks =>
      obtain ⟨hC, hBlanks⟩ := List.forall_mem_cons.1 h
      rw [words_append_blank hC, words_eq_nil hBlanks, List.append_nil]

/-! ### What is before a text -/

variable {sep xs ys : List Char}

theorem prefix_beforeInfix (sep cs : List Char) : beforeInfix sep cs <+: cs := by
  induction cs with
  | nil => exact List.prefix_rfl
  | cons c cs ih =>
      rw [beforeInfix]
      split
      · exact List.nil_prefix
      · exact List.cons_prefix_cons.2 ⟨rfl, ih⟩

/-- A text has another text behind what is before it, or does not have it at all. -/
theorem eq_beforeInfix_append (sep cs : List Char) :
    beforeInfix sep cs = cs ∨ ∃ rest, cs = beforeInfix sep cs ++ sep ++ rest := by
  induction cs with
  | nil => exact .inl rfl
  | cons c cs ih =>
      rw [beforeInfix]
      split
      · rename_i hSep
        obtain ⟨rest, hRest⟩ := List.isPrefixOf_iff_prefix.1 hSep
        exact .inr ⟨rest, hRest.symm⟩
      · rcases ih with hAll | ⟨rest, hRest⟩
        · exact .inl (by rw [hAll])
        · exact .inr ⟨rest, by rw [List.cons_append, List.cons_append, ← hRest]⟩

/-- What has been cut has nothing more to cut. -/
theorem beforeInfix_beforeInfix (sep cs : List Char) :
    beforeInfix sep (beforeInfix sep cs) = beforeInfix sep cs := by
  induction cs with
  | nil => rfl
  | cons c cs ih =>
      by_cases hSep : sep.isPrefixOf (c :: cs) = true
      · rw [beforeInfix, if_pos hSep, beforeInfix]
      · have hShort : ¬sep.isPrefixOf (c :: beforeInfix sep cs) = true := by
          rw [List.isPrefixOf_iff_prefix] at hSep ⊢
          exact fun h => hSep (h.trans (List.cons_prefix_cons.2 ⟨rfl, prefix_beforeInfix sep cs⟩))
        rw [beforeInfix, if_neg hSep, beforeInfix, if_neg hShort, ih]

/-- Where a text is cut behind its beginning, the rest of it is cut there too. -/
theorem beforeInfix_of_append (h : beforeInfix sep (xs ++ cs) = xs ++ ys) :
    beforeInfix sep cs = ys := by
  induction xs with
  | nil => exact h
  | cons x xs ih =>
      rw [List.cons_append, beforeInfix] at h
      split at h
      · cases h
      · exact ih (List.cons.inj h).2

/-- The beginning of a text that is not cut is not cut. -/
theorem beforeInfix_left (h : beforeInfix sep (xs ++ ys) = xs ++ ys) : beforeInfix sep xs = xs := by
  induction xs with
  | nil => rfl
  | cons x xs ih =>
      rw [List.cons_append, beforeInfix] at h
      split at h
      · cases h
      · rename_i hSep
        have hShort : ¬sep.isPrefixOf (x :: xs) = true := by
          rw [List.isPrefixOf_iff_prefix] at hSep ⊢
          exact fun hPrefix => hSep (hPrefix.trans (List.prefix_append (x :: xs) ys))
        rw [beforeInfix, if_neg hShort, ih (List.cons.inj h).2]

theorem beforeInfix_append_of_not_mem (h : c ∉ xs) :
    beforeInfix (c :: sep) (xs ++ cs) = xs ++ beforeInfix (c :: sep) cs := by
  induction xs with
  | nil => rfl
  | cons x xs ih =>
      rw [List.mem_cons, not_or] at h
      have hNot : ¬(c :: sep).isPrefixOf (x :: (xs ++ cs)) = true := by
        rw [List.isPrefixOf_iff_prefix]
        exact fun hPrefix => h.1 (List.cons_prefix_cons.1 hPrefix).1
      rw [List.cons_append, beforeInfix, if_neg hNot, ih h.2, List.cons_append]

/-- Blanks in front are kept when a text is cut, as no separator begins in them. -/
theorem beforeInfix_append_left (hSep : sep ≠ []) (h : ∀ c ∈ blanks, c ∉ sep) :
    beforeInfix sep (blanks ++ cs) = blanks ++ beforeInfix sep cs := by
  obtain ⟨first, rest, rfl⟩ := List.exists_cons_of_ne_nil hSep
  exact beforeInfix_append_of_not_mem fun hMem => h first hMem List.mem_cons_self

theorem beforeInfix_append_right (h : ∀ c ∈ blanks, c ∉ sep) (cs : List Char) :
    beforeInfix sep (cs ++ blanks) = beforeInfix sep cs ∨
      beforeInfix sep (cs ++ blanks) = beforeInfix sep cs ++ blanks := by
  by_cases hSep : sep = []
  · left
    subst hSep
    cases cs <;> cases blanks <;> rfl
  induction cs with
  | nil =>
      right
      rw [List.nil_append, ← List.append_nil blanks, beforeInfix_append_left hSep h]
      rfl
  | cons c cs ih =>
      have hSame : sep <+: c :: cs ++ blanks ↔ sep <+: c :: cs := by
        refine ⟨fun hPrefix => ?_, fun hPrefix => hPrefix.trans (List.prefix_append _ _)⟩
        rcases List.prefix_or_prefix_of_prefix hPrefix (List.prefix_append (c :: cs) blanks) with
          hShort | ⟨rest, rfl⟩
        · exact hShort
        · -- what of it is among the blanks is none of its characters
          rw [List.prefix_append_right_inj] at hPrefix
          cases rest with
          | nil => simp
          | cons d rest =>
              refine absurd ?_ (h d (hPrefix.subset List.mem_cons_self))
              exact List.mem_append_right _ List.mem_cons_self
      rw [List.cons_append] at hSame
      simp only [List.cons_append, beforeInfix, List.isPrefixOf_iff_prefix, hSame]
      split
      · exact .inl rfl
      · exact ih.imp (congrArg (c :: ·)) (congrArg (c :: ·))

end SourceSurvey.Text
