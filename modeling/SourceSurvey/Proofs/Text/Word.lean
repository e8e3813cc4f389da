import SourceSurvey.Proofs.Text.Blank

/-!
Texts put together from words and the blanks between them: which words they have, what is left when
they are trimmed, and where a given word between two blanks is found in them.
-/

namespace SourceSurvey.Text

/-- A word: not empty, and without blanks. -/
structure Unbroken (word : List Char) : Prop where
  ne_nil : word ≠ []
  not_blank : ∀ c ∈ word, isBlank c = false

variable {gap word cs xs ys : List Char} {c d : Char}

theorem unbroken_of_all (hSome : word ≠ []) (hAll : word.all (!isBlank ·) = true) :
    Unbroken word :=
  ⟨hSome, fun c hC => by simpa using List.all_eq_true.1 hAll c hC⟩

/-! ### Words -/

/-- A word without blanks is one word. -/
theorem Unbroken.words (h : Unbroken word) : words word = [word] := by
  have hPieces : word.splitOnP isBlank = [word] :=
    List.splitOnP_eq_singleton fun c hC => by simp [h.not_blank c hC]
  rw [Text.words, splitBy_eq_splitOnP, hPieces]
  simp [h.ne_nil]

theorem words_gap_append (hGap : ∀ c ∈ gap, isBlank c = true) (cs : List Char) :
    words (gap ++ cs) = words cs := by
  induction gap with
  | nil => rfl
  | cons c gap ih =>
      obtain ⟨hC, hRest⟩ := List.forall_mem_cons.1 hGap
      have hFirst : words (c :: (gap ++ cs)) = words (gap ++ cs) := words_append_blank hC [] _
      rw [List.cons_append, hFirst, ih hRest]

/-- Blanks part two texts. -/
theorem words_append_gap_append (hGap : ∀ c ∈ gap, isBlank c = true) (hSome : gap ≠ [])
    (xs ys : List Char) : words (xs ++ gap ++ ys) = words xs ++ words ys := by
  obtain ⟨c, rest, rfl⟩ := List.exists_cons_of_ne_nil hSome
  obtain ⟨hC, hRest⟩ := List.forall_mem_cons.1 hGap
  rw [List.append_assoc, List.cons_append, words_append_blank hC, words_gap_append hRest]

/-- Blanks at the ends make no words. -/
theorem words_trimBoth (cs : List Char) : words (trimBoth isBlank cs) = words cs := by
  obtain ⟨before, behind, hBefore, hBehind, hCs⟩ := exists_eq_append_trimBoth isBlank cs
  calc words (trimBoth isBlank cs)
      = words (before ++ trimBoth isBlank cs ++ behind) := by
        rw [words_append_blanks hBehind, words_gap_append hBefore]
    _ = words cs := by rw [← hCs]

/-- The last word of a text that does not end with a blank ends as the text does. -/
theorem words_concat (hC : isBlank c = false) (cs : List Char) :
    ∃ before last, words (cs ++ [c]) = before ++ [last ++ [c]] := by
  suffices hMore : ∀ word : List Char, (∀ d ∈ word, isBlank d = false) →
      ∃ before last, words (cs ++ (word ++ [c])) = before ++ [last ++ [c]] from
    hMore [] (by simp)
  induction cs using List.reverseRecOn with
  | nil =>
      intro word hWord
      have hUnbroken : Unbroken (word ++ [c]) :=
        ⟨by simp, List.forall_mem_append.2 ⟨hWord, List.forall_mem_singleton.2 hC⟩⟩
      exact ⟨[], word, hUnbroken.words⟩
  | append_singleton cs d ih =>
      intro word hWord
      rw [List.append_assoc, List.singleton_append]
      cases hD : isBlank d with
      | true =>
          have hUnbroken : Unbroken (word ++ [c]) :=
            ⟨by simp, List.forall_mem_append.2 ⟨hWord, List.forall_mem_singleton.2 hC⟩⟩
          exact ⟨words cs, word, by rw [words_append_blank hD, hUnbroken.words]⟩
      | false => exact ih (d :: word) (List.forall_mem_cons.2 ⟨hD, hWord⟩)

theorem words_ne_nil (hC : isBlank c = false) (hMem : c ∈ cs) : words cs ≠ [] := by
  obtain ⟨xs, ys, rfl⟩ := List.append_of_mem hMem
  induction ys using List.reverseRecOn with
  | nil =>
      obtain ⟨before, last, hWords⟩ := words_concat hC xs
      rw [hWords]
      exact List.append_ne_nil_of_right_ne_nil before (List.cons_ne_nil _ _)
  | append_singleton ys d ih =>
      rw [← List.cons_append, ← List.append_assoc]
      cases hD : isBlank d with
      | true =>
          rw [words_append_blanks (List.forall_mem_singleton.2 hD)]
          exact ih (by simp)
      | false =>
          obtain ⟨before, last, hWords⟩ := words_concat hD (xs ++ c :: ys)
          rw [hWords]
          exact List.append_ne_nil_of_right_ne_nil before (List.cons_ne_nil _ _)

/-- A word that stands between two others. -/
theorem exists_words_eq_append {first last : List Char} (hWord : Unbroken word)
    (hFirst : ∀ c ∈ first, isBlank c = true) (hFirstSome : first ≠ [])
    (hLast : ∀ c ∈ last, isBlank c = true) (hLastSome : last ≠ []) (hC : isBlank c = false)
    (xs ys : List Char) : ∃ before w, words (xs ++ [c] ++ first ++ word ++ last ++ ys) =
      before ++ (w ++ [c]) :: word :: words ys := by
  obtain ⟨before, w, hBefore⟩ := words_concat hC xs
  refine ⟨before, w, ?_⟩
  rw [words_append_gap_append hLast hLastSome, words_append_gap_append hFirst hFirstSome, hBefore,
    hWord.words]
  simp

/-! ### Trimming -/

theorem Unbroken.trimBoth (hWord : Unbroken word) {before behind : List Char}
    (hBefore : ∀ c ∈ before, isBlank c = true) (hBehind : ∀ c ∈ behind, isBlank c = true) :
    trimBoth isBlank (before ++ word ++ behind) = word := by
  rw [trimBoth_append_right hBehind, trimBoth_append_left hBefore]
  exact trimBoth_eq_self (fun c hC => hWord.not_blank c (List.mem_of_mem_head? hC))
    fun c hC => hWord.not_blank c (List.mem_of_mem_getLast? hC)

theorem trimBoth_eq_nil (h : ∀ c ∈ gap, isBlank c = true) : trimBoth isBlank gap = [] := by
  rw [← List.append_nil gap, trimBoth_append_left h]
  rfl

/-! ### Parts of a text -/

/-- What does not hold a separator lies on one side of it. -/
theorem infix_or_infix_of_infix_append_cons (hSep : c ∉ word) (h : word <:+: xs ++ c :: ys) :
    word <:+: xs ∨ word <:+: ys := by
  obtain ⟨before, behind, hText⟩ := h
  rw [List.append_assoc] at hText
  rcases List.append_eq_append_iff.1 hText with ⟨part, rfl, hRest⟩ | ⟨part, rfl, hRest⟩
  · rcases List.append_eq_append_iff.1 hRest with ⟨more, rfl, _⟩ | ⟨more, hWord, hMore⟩
    · exact .inl ⟨before, more, List.append_assoc _ _ _⟩
    · cases more with
      | nil =>
          rw [List.append_nil] at hWord
          exact .inl ⟨before, [], by rw [hWord, List.append_nil]⟩
      | cons d more =>
          obtain ⟨rfl, _⟩ := List.cons.inj hMore
          exact absurd (hWord ▸ List.mem_append_right part List.mem_cons_self) hSep
  · cases part with
    | nil =>
        right
        cases word with
        | nil => exact List.nil_infix
        | cons d word =>
            obtain ⟨rfl, _⟩ := List.cons.inj hRest
            exact absurd List.mem_cons_self hSep
    | cons d part =>
        obtain ⟨rfl, rfl⟩ := List.cons.inj hRest
        exact .inr ⟨part, behind, List.append_assoc _ _ _⟩

/-- A word without separators that stands in joined items stands in one of them. -/
theorem exists_infix_of_infix_intercalate {items : List (List Char)} (hSep : c ∉ word)
    (hWord : word ≠ []) (h : word <:+: [c].intercalate items) : ∃ item ∈ items, word <:+: item := by
  induction items with
  | nil => exact absurd (List.infix_nil.1 h) hWord
  | cons item items ih =>
      cases items with
      | nil =>
          rw [List.intercalate_singleton] at h
          exact ⟨item, List.mem_cons_self, h⟩
      | cons next items =>
          rw [List.intercalate_cons_cons, List.append_assoc, List.singleton_append] at h
          rcases infix_or_infix_of_infix_append_cons hSep h with hHere | hLater
          · exact ⟨item, List.mem_cons_self, hHere⟩
          · obtain ⟨found, hMem, hFound⟩ := ih hLater
            exact ⟨found, List.mem_cons_of_mem _ hMem, hFound⟩

theorem mem_of_mem_intercalate {items : List (List Char)} (h : d ∈ [c].intercalate items) :
    d = c ∨ ∃ item ∈ items, d ∈ item := by
  by_cases hSep : d = c
  · exact .inl hSep
  · obtain ⟨before, behind, hText⟩ := List.append_of_mem h
    have hInfix : [d] <:+: [c].intercalate items := ⟨before, behind, by simp [hText]⟩
    have hApart : c ∉ [d] := fun hMem => hSep (List.mem_singleton.1 hMem).symm
    obtain ⟨item, hItem, hPart⟩ :=
      exists_infix_of_infix_intercalate hApart (List.cons_ne_nil d []) hInfix
    exact .inr ⟨item, hItem, hPart.subset List.mem_cons_self⟩

theorem intercalate_append_cons (sep gap item : List Char) (items : List (List Char)) :
    sep.intercalate ((gap ++ item) :: items) = gap ++ sep.intercalate (item :: items) := by
  cases items with
  | nil => rw [List.intercalate_singleton, List.intercalate_singleton]
  | cons next items =>
      rw [List.intercalate_cons_cons, List.intercalate_cons_cons]
      simp only [List.append_assoc]

/-! ### What is before a word between two blanks -/

/-- Blanks and a word begin with a given word between two blanks if they are the one blank and the
word, and the other blank follows. -/
theorem blank_word_blank_prefix_iff {key : List Char} (hD : isBlank d = true)
    (hKey : Unbroken key) (hGap : ∀ e ∈ gap, isBlank e = true) (hSome : gap ≠ [])
    (hWord : Unbroken word) (hNext : ∀ e ∈ cs.head?, isBlank e = true) :
    c :: key ++ [d] <+: gap ++ word ++ cs ↔ gap = [c] ∧ word = key ∧ cs.head? = some d := by
  obtain ⟨e, gap, rfl⟩ := List.exists_cons_of_ne_nil hSome
  have hSpan : ∀ {word rest : List Char}, Unbroken word → (∀ e ∈ rest.head?, isBlank e = true) →
      (word ++ rest).takeWhile (!isBlank ·) = word := by
    intro word rest hWord hRest
    rw [List.takeWhile_append_of_pos fun e hE => by rw [hWord.not_blank e hE]; rfl]
    cases rest with
    | nil => rw [List.takeWhile_nil, List.append_nil]
    | cons e rest => rw [List.takeWhile_cons_of_neg (by simp [hRest e rfl]), List.append_nil]
  constructor
  · intro h
    rw [List.cons_append, List.append_assoc, List.cons_append, List.cons_prefix_cons] at h
    obtain ⟨rfl, rest, hRest⟩ := h
    rw [List.append_assoc] at hRest
    cases gap with
    | nil =>
        have hSame : key = word := by
          have hTaken := congrArg (List.takeWhile (!isBlank ·)) hRest
          rwa [hSpan hKey (by simpa using hD), List.nil_append, hSpan hWord hNext] at hTaken
        subst hSame
        rw [List.nil_append, List.append_cancel_left_eq] at hRest
        exact ⟨rfl, rfl, by rw [← hRest]; rfl⟩
    | cons e gap =>
        obtain ⟨first, others, hFirst⟩ := List.exists_cons_of_ne_nil hKey.ne_nil
        rw [hFirst] at hRest
        obtain ⟨rfl, _⟩ := List.cons.inj hRest
        have hBlank : isBlank first = true := hGap first (by simp)
        rw [hKey.not_blank first (hFirst ▸ List.mem_cons_self)] at hBlank
        cases hBlank
  · rintro ⟨hSame, rfl, hHead⟩
    rw [hSame]
    obtain ⟨rest, rfl⟩ := List.head?_eq_some_iff.1 hHead
    exact ⟨rest, by simp⟩

/-- Blanks and a word are kept and what follows is cut, unless the word is the one that is looked for
and stands between the right blanks. -/
theorem beforeInfix_blanks_word {key : List Char} (hC : isBlank c = true) (hD : isBlank d = true)
    (hKey : Unbroken key) (hGap : ∀ e ∈ gap, isBlank e = true) (hWord : Unbroken word)
    (hNext : ∀ e ∈ cs.head?, isBlank e = true) :
    beforeInfix (c :: key ++ [d]) (gap ++ word ++ cs) =
      if gap.getLast? = some c ∧ word = key ∧ cs.head? = some d then gap.dropLast
      else gap ++ word ++ beforeInfix (c :: key ++ [d]) cs := by
  induction gap with
  | nil =>
      have hApart : c ∉ word := fun hMem => by simp [hWord.not_blank c hMem] at hC
      rw [if_neg (by simp)]
      exact beforeInfix_append_of_not_mem hApart
  | cons e gap ih =>
      have hHere : c :: key ++ [d] <+: e :: gap ++ word ++ cs ↔
          e :: gap = [c] ∧ word = key ∧ cs.head? = some d :=
        blank_word_blank_prefix_iff hD hKey hGap (List.cons_ne_nil e gap) hWord hNext
      have hLater := ih (List.forall_mem_cons.1 hGap).2
      change beforeInfix (c :: key ++ [d]) (e :: (gap ++ word ++ cs)) = _
      rw [beforeInfix]
      split
      · rename_i hFound
        obtain ⟨hSame, rfl, hHead⟩ := hHere.1 (List.isPrefixOf_iff_prefix.1 hFound)
        cases hSame
        rw [if_pos ⟨rfl, rfl, hHead⟩]
        rfl
      · rename_i hFound
        have hNot : ¬(e :: gap = [c] ∧ word = key ∧ cs.head? = some d) :=
          fun h => hFound (List.isPrefixOf_iff_prefix.2 (hHere.2 h))
        rw [hLater]
        cases gap with
        | nil =>
            have hFirst : ¬([e].getLast? = some c ∧ word = key ∧ cs.head? = some d) :=
              fun h => hNot ⟨by simpa using h.1, h.2⟩
            rw [if_neg hFirst, if_neg (by simp)]
            rfl
        | cons f gap =>
            rw [List.getLast?_cons_cons]
            split <;> rfl

end SourceSurvey.Text
