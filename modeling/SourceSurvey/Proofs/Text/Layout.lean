import SourceSurvey.Proofs.Text.Word

/-!
Lines as they are written, with blanks at their ends, and texts put together from lines. A carriage
return before a line feed is one of the blanks behind its line.
-/

namespace SourceSurvey.Text

variable {p : Char → Bool} {xs ys : List Char}

/-! ### Trimming -/

/-- A text that neither begins nor ends with a blank is kept where it begins another one. -/
theorem exists_trimBoth_append (hSome : xs ≠ []) (hFirst : ∀ c ∈ xs.head?, p c = false)
    (hLast : ∀ c ∈ xs.getLast?, p c = false) (ys : List Char) :
    ∃ kept blanks, (∀ c ∈ blanks, p c = true) ∧ ys = kept ++ blanks ∧
      trimBoth p (xs ++ ys) = xs ++ kept := by
  obtain ⟨behind, hBehind, hText⟩ :=
    exists_eq_trimBoth_append (List.head?_append_of_ne_nil xs hSome ▸ hFirst)
  rcases List.append_eq_append_iff.1 hText with ⟨kept, hTrim, hRest⟩ | ⟨surplus, hStart, hRest⟩
  · exact ⟨kept, behind, hBehind, hRest, hTrim⟩
  · -- what is trimmed off the beginning would be blank, and is not
    have hSurplus : surplus = [] := by
      rcases List.eq_nil_or_concat surplus with hNone | ⟨front, c, hSurplus⟩
      · exact hNone
      · rw [List.concat_eq_append] at hSurplus
        have hBlank := hBehind c (by rw [hRest, hSurplus]; simp)
        have hEnd := hLast c (by rw [hStart, hSurplus, ← List.append_assoc]; simp)
        rw [hBlank] at hEnd
        cases hEnd
    rw [hSurplus, List.append_nil] at hStart
    rw [hSurplus, List.nil_append] at hRest
    exact ⟨[], behind, hBehind, hRest.symm, by rw [List.append_nil, ← hStart]⟩

/-! ### Lines -/

/-- Blanks at an end of a line, or between its words. -/
structure Margin where
  chars : List Char
  blank : ∀ c ∈ chars, isBlank c = true
  inLine : '\n' ∉ chars

namespace Margin

/-- The margin of these characters, which are checked one by one. -/
def ofChars (chars : List Char) (h : chars.all (fun c => isBlank c && c != '\n') = true) :
    Margin where
  chars := chars
  blank c hC := (Bool.and_eq_true_iff.1 (List.all_eq_true.1 h c hC)).1
  inLine hMem := absurd (List.all_eq_true.1 h '\n' hMem) (by decide)

def nothing : Margin := ofChars [] rfl

def space : Margin := ofChars [' '] rfl

end Margin

/-- Trimmed, the lines that a text is put together from are its lines, but for an empty one at the
end. -/
theorem map_trimBoth_lines_intercalate {written : List (List Char)}
    (hInLine : ∀ line ∈ written, '\n' ∉ line) :
    written.map (trimBoth isBlank) = (lines (['\n'].intercalate written)).map (trimBoth isBlank) ∨
      written.map (trimBoth isBlank) =
        (lines (['\n'].intercalate written)).map (trimBoth isBlank) ++ [[]] := by
  cases written with
  | nil => exact .inl rfl
  | cons line rest =>
      have hPieces := List.splitOn_intercalate '\n' hInLine (List.cons_ne_nil line rest)
      have hLines := map_trimBoth_lines (['\n'].intercalate (line :: rest))
      rwa [hPieces] at hLines

end SourceSurvey.Text
