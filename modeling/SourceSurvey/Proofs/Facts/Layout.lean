import SourceSurvey.Proofs.Facts.ExportList
import SourceSurvey.Proofs.Regex.Greedy

/-!
What the idioms of exports find in a list of names in braces, laid out in any way: the whole list is
captured once, and neither a declaration nor an assignment is seen in it. So the layout matters only
as far as it matters to how each name is read.
-/

namespace SourceSurvey.Idiom

open Text

namespace ExportList

variable (l : ExportList)

/-! ### The list -/

/-- The text up to the brace. -/
def head : List Char := l.front.chars ++ "export".toList ++ l.behindExport.chars

theorem inner_head : ∀ c ∈ l.head, isInner c = true := by
  simp only [head, List.forall_mem_append]
  exact ⟨⟨l.front.inner, inner_of_mem_syntaxWords export_mem_syntaxWords⟩, l.behindExport.inner⟩

/-- What stands behind the opening brace. -/
def inside : List Char := l.first.before.chars ++ l.body ++ '\x7d' :: l.back.chars

theorem text_eq : l.text = l.head ++ '\x7b' :: l.inside := by
  rw [text, intercalate_pieces, head, inside]

theorem mem_inside {c : Char} (h : c ∈ l.inside) : isInner c = true ∨ c = ',' ∨ c = '\x7d' := by
  rw [inside, List.mem_append, List.mem_append, List.mem_cons] at h
  rcases h with (hBefore | hBody) | hBrace | hBack
  · exact .inl (l.first.before.inner c hBefore)
  · exact (l.mem_body hBody).imp id .inl
  · exact .inr (.inr hBrace)
  · exact .inl (l.back.inner c hBack)

end ExportList

/-- An exported list opens a bracket behind the keyword, with blanks at most between them. -/
theorem exists_of_mem_language_exportedList {read : List Char} (h : read ∈ exportedList.language) :
    ∃ gap more, (∀ c ∈ gap, isBlank c = true) ∧ read = "export".toList ++ gap ++ '\x7b' :: more := by
  obtain ⟨first, hFirst, afterFirst, hAfterFirst, rfl⟩ := Language.mem_mul.1 h
  obtain ⟨gap, hGap, afterGap, hAfterGap, rfl⟩ := Language.mem_mul.1 hAfterFirst
  obtain ⟨brace, hBrace, more, _, rfl⟩ := Language.mem_mul.1 hAfterGap
  obtain rfl := Regex.mem_language_text hFirst
  obtain rfl := Regex.mem_language_text hBrace
  exact ⟨gap, more, hGap.2, (List.append_assoc _ _ _).symm⟩

namespace ExportList

variable (l : ExportList)

/-- There is one opening brace only, and one keyword before it. -/
theorem start_of_occurs_exportedList {start stop : Nat}
    (h : exportedList.Occurs l.text start stop) : start = l.front.chars.length := by
  obtain ⟨read, hRead, hDrop, _⟩ := h.exists_read
  obtain ⟨gap, more, hGap, rfl⟩ := exists_of_mem_language_exportedList hRead
  have hHeadBrace : '\x7b' ∉ l.head := fun hMem => absurd (l.inner_head _ hMem) (by decide)
  have hInsideBrace : '\x7b' ∉ l.inside := fun hMem => absurd (l.mem_inside hMem) (by decide)
  have hFrontLetter : 't' ∉ l.front.chars ++ "expor".toList := by
    rw [List.mem_append, not_or]
    exact ⟨fun hMem => absurd (l.front.blank _ hMem) (by decide), by decide⟩
  have hGapLetter : 't' ∉ l.behindExport.chars :=
    fun hMem => absurd (l.behindExport.blank _ hMem) (by decide)
  have hText : l.head ++ '\x7b' :: l.inside =
      l.text.take start ++ "export".toList ++ gap ++ '\x7b' :: (more ++ l.text.drop stop) := by
    rw [← text_eq]
    conv_lhs => rw [← List.take_append_drop start l.text, hDrop]
    simp
  obtain ⟨hHead, _⟩ := (List.append_cons_inj_of_notMem hHeadBrace hInsideBrace).1 hText
  have hExport : l.front.chars ++ "expor".toList ++ 't' :: l.behindExport.chars =
      l.text.take start ++ "expor".toList ++ 't' :: gap := by
    simpa [head] using hHead
  obtain ⟨hFront, _⟩ := (List.append_cons_inj_of_notMem hFrontLetter hGapLetter).1 hExport
  rw [List.append_cancel_right_eq] at hFront
  rw [hFront, List.length_take, Nat.min_eq_left h.1]

theorem not_blank_of_mem_head?_body {rest : List Char} :
    ∀ c ∈ (l.body ++ rest).head?, isBlank c = false := by
  obtain ⟨more, hBody⟩ := l.body_eq_append
  obtain ⟨first, others, hFirst⟩ := List.exists_cons_of_ne_nil l.first.name.ne_nil
  intro c hC
  rw [hBody, hFirst] at hC
  cases hC
  exact l.first.name.unbroken.not_blank first (hFirst ▸ List.mem_cons_self)

theorem body_ne_nil : l.body ≠ [] := by
  obtain ⟨more, hBody⟩ := l.body_eq_append
  rw [hBody]
  exact List.append_ne_nil_of_left_ne_nil l.first.name.ne_nil more

theorem noneOf_contains_of_mem_body : ∀ c ∈ l.body, (Regex.noneOf "\x7d").contains c = true := by
  intro c hC
  have hApart : c ≠ '\x7d' := by
    rintro rfl
    exact absurd (l.mem_body hC) (by decide)
  simpa [Regex.noneOf, Regex.oneOf, CharSet.contains] using hApart

/-- The text up to the first name. -/
def upToName : List Char := l.head ++ "\x7b".toList ++ l.first.before.chars

/-- The blanks behind the brace are read first, as many as there are, and then all up to the other
brace. -/
theorem leads_exportedList : Regex.Leads exportedList
    (.between l.front.chars ("export".toList ++ (l.behindExport.chars ++ ("\x7b".toList ++
      (l.first.before.chars ++ (l.body ++ ("\x7d".toList ++ l.back.chars))))))) []
    (.between (l.upToName ++ l.body ++ "\x7d".toList) l.back.chars)
    [(1, l.upToName.length, (l.upToName ++ l.body).length)] := by
  have hOpen : ∀ rest, ∀ c ∈ ("\x7b".toList ++ rest).head?, isBlank c = false := by
    intro rest c hC
    cases hC
    decide
  have hClose : ∀ rest, ∀ c ∈ ("\x7d".toList ++ rest).head?,
      isBlank c = false ∧ (Regex.noneOf "\x7d").contains c = false := by
    intro rest c hC
    cases hC
    decide
  refine Regex.Leads.sequence (Regex.leads_text "export" _ _ _) ?_
  refine Regex.Leads.sequence (Regex.leads_span (Nat.zero_le _) l.behindExport.blank (hOpen _)) ?_
  refine Regex.Leads.sequence (Regex.leads_text "\x7b" _ _ _) ?_
  refine Regex.Leads.sequence (Regex.leads_span (Nat.zero_le _) l.first.before.blank
    l.not_blank_of_mem_head?_body) ?_
  refine Regex.Leads.sequence (Regex.leads_span (List.length_pos_of_ne_nil l.body_ne_nil)
    l.noneOf_contains_of_mem_body fun c hC => (hClose _ c hC).2).group ?_
  refine Regex.Leads.sequence (Regex.leads_span_nil fun c hC => (hClose _ c hC).1) ?_
  exact Regex.Leads.sequence (Regex.leads_text "\x7d" _ _ _) Regex.leads_empty

/-- The list is found once, and captured from its first name to its closing bracket. -/
theorem firstGroups_exportedList : Regex.firstGroups exportedList l.text = [l.body] := by
  have hText : l.text = l.upToName ++ l.body ++ ("\x7d".toList ++ l.back.chars) := by
    simp [text_eq, upToName, inside]
  refine Regex.firstGroups_eq_singleton rfl l.leads_exportedList ?_ ?_ hText
    fun _ _ => l.start_of_occurs_exportedList
  · simp [upToName, head]
  · simp [hText, upToName, head]

/-- A list is no export of a module. -/
theorem firstGroups_moduleExports : Regex.firstGroups moduleExports l.text = [] := by
  refine Regex.firstGroups_eq_nil fun start stop h => ?_
  obtain ⟨read, hRead, hDrop, _⟩ := h.exists_read
  obtain ⟨first, hFirst, rest, _, rfl⟩ := Language.mem_mul.1 hRead
  obtain rfl := Regex.mem_language_text hFirst
  have hDot : '.' ∈ l.text := by
    apply List.mem_of_mem_drop (i := start)
    rw [hDrop]
    simp
  rw [text_eq, List.mem_append, List.mem_cons] at hDot
  rcases hDot with hHead | hBrace | hInside
  · exact absurd (l.inner_head _ hHead) (by decide)
  · exact absurd hBrace (by decide)
  · exact absurd (l.mem_inside hInside) (by decide)

end ExportList

/-! ### Declarations -/

theorem exists_of_mem_language_exportedDeclaration {read : List Char}
    (h : read ∈ exportedDeclaration.language) : ∃ first word last more,
      (∀ c ∈ first, isBlank c = true) ∧ first ≠ [] ∧ word ∈ declarators ∧
      (∀ c ∈ last, isBlank c = true) ∧ last ≠ [] ∧
      read = "export".toList ++ first ++ word ++ last ++ more := by
  obtain ⟨_, hExport, afterExport, hAfterExport, rfl⟩ := Language.mem_mul.1 h
  obtain ⟨first, hFirst, afterFirst, hAfterFirst, rfl⟩ := Language.mem_mul.1 hAfterExport
  obtain ⟨default, hDefault, afterDefault, hAfterDefault, rfl⟩ := Language.mem_mul.1 hAfterFirst
  obtain rfl := Regex.mem_language_text hExport
  obtain ⟨hFirstSome, hFirstBlank⟩ := Regex.mem_language_many hFirst
  rcases Regex.mem_language_optional hDefault with rfl | hDefault
  · obtain ⟨word, hWord, afterWord, hAfterWord, rfl⟩ := Language.mem_mul.1 hAfterDefault
    obtain ⟨last, hLast, more, _, rfl⟩ := Language.mem_mul.1 hAfterWord
    obtain ⟨hLastSome, hLastBlank⟩ := Regex.mem_language_many hLast
    refine ⟨first, word, last, more, hFirstBlank, hFirstSome, ?_, hLastBlank, hLastSome, by simp⟩
    obtain ⟨option, hOption, hWord⟩ := Regex.mem_language_choice (by simp) hWord
    obtain ⟨name, hName, rfl⟩ : ∃ name ∈ ["class", "function", "const", "let", "var"],
        Regex.text name = option := List.mem_map.1 hOption
    rw [Regex.mem_language_text hWord]
    exact List.mem_map_of_mem (List.mem_cons_of_mem "default" hName)
  · obtain ⟨word, hWord, afterWord, hAfterWord, rfl⟩ := Language.mem_mul.1 hDefault
    obtain ⟨last, hLast, more, _, rfl⟩ := Language.mem_mul.1 hAfterWord
    obtain rfl := Regex.mem_language_text hWord
    obtain ⟨hLastSome, hLastBlank⟩ := Regex.mem_language_many hLast
    exact ⟨first, "default".toList, last, more ++ afterDefault, hFirstBlank, hFirstSome, by decide,
      hLastBlank, hLastSome, by simp⟩

/-- Words of which one ends as `export` does and the next is one of declarations. -/
def Declares (words : List (List Char)) : Prop :=
  ∃ before w after, ∃ word ∈ declarators, words = before ++ (w ++ ['t']) :: word :: after

/-- A text with the beginning of a declaration has such words. -/
theorem declares_of_infix {first word last cs : List Char}
    (hFirst : ∀ c ∈ first, isBlank c = true) (hFirstSome : first ≠ []) (hWord : word ∈ declarators)
    (hLast : ∀ c ∈ last, isBlank c = true) (hLastSome : last ≠ [])
    (h : "export".toList ++ first ++ word ++ last <:+: cs) : Declares (words cs) := by
  obtain ⟨before, behind, rfl⟩ := h
  have hUnbroken := unbroken_of_mem_syntaxWords (mem_syntaxWords_of_mem_declarators hWord)
  obtain ⟨others, w, hWords⟩ := exists_words_eq_append hUnbroken hFirst hFirstSome hLast
    hLastSome (c := 't') (by decide) (before ++ "expor".toList) behind
  refine ⟨others, w, words behind, word, hWord, ?_⟩
  rw [← hWords]
  simp

/-- The words of an entry: a name, and with an alias two more. -/
theorem Entry.words_text (e : Entry) : words e.text =
    e.name.chars :: (e.renamed.map fun a => [keyword, a.name.chars]).getD [] := by
  rw [Entry.text, tail, ← List.append_assoc, words_append_blanks e.behind.blank]
  cases e.renamed with
  | none =>
      simp [words_gap_append e.before.blank, e.name.unbroken.words]
  | some a =>
      have hParts : e.before.chars ++ e.name.chars ++ a.text = e.before.chars ++ e.name.chars ++
          a.before.chars ++ (keyword ++ a.behind.chars ++ a.name.chars) := by
        simp [Alias.text]
      rw [Option.map_some, Option.getD_some, hParts,
        words_append_gap_append a.before.blank a.before_ne_nil,
        words_append_gap_append a.behind.blank a.behind_ne_nil, words_gap_append e.before.blank,
        e.name.unbroken.words, unbroken_keyword.words, a.name.unbroken.words]
      rfl

/-- A declaration has a keyword and a name. -/
theorem two_le_length_of_declares {words : List (List Char)} (h : Declares words) :
    2 ≤ words.length := by
  obtain ⟨before, w, after, word, _, rfl⟩ := h
  simp only [List.length_append, List.length_cons]
  omega

theorem Gap.not_declares (g : Gap) : ¬Declares (words g.chars) := by
  intro h
  have hLength := two_le_length_of_declares h
  rw [words_eq_nil g.blank] at hLength
  exact absurd hLength (by decide)

/-- Behind a name in a list comes no declaration: what may follow it is the keyword, and what follows
this does not follow the last letter of `export`. -/
theorem Entry.not_declares (e : Entry) : ¬Declares (words e.text) := by
  intro h
  have hLength := two_le_length_of_declares h
  obtain ⟨before, w, after, word, hWord, hWords⟩ := h
  rw [e.words_text] at hWords hLength
  cases hRenamed : e.renamed with
  | none => simp [hRenamed] at hLength
  | some a =>
      rw [hRenamed, Option.map_some, Option.getD_some] at hWords
      match before with
      | [] =>
          obtain ⟨_, hKeyword⟩ := List.cons.inj hWords
          obtain ⟨rfl, _⟩ := List.cons.inj hKeyword
          exact absurd hWord (by decide)
      | [_] =>
          obtain ⟨_, hKeyword⟩ := List.cons.inj hWords
          obtain ⟨hSame, _⟩ := List.cons.inj hKeyword
          have hLast := congrArg List.getLast? hSame
          rw [List.getLast?_concat] at hLast
          exact absurd hLast (by decide)
      | _ :: _ :: before =>
          have hFew := congrArg List.length hWords
          simp only [List.length_append, List.length_cons, List.length_nil] at hFew
          omega

namespace ExportList

variable (l : ExportList)

/-- What stands before a list declares nothing. -/
theorem not_declares_head : ¬Declares (words l.head) := by
  intro h
  have hExport := unbroken_of_mem_syntaxWords export_mem_syntaxWords
  have hLength := two_le_length_of_declares h
  rw [head, words_append_blanks l.behindExport.blank, words_gap_append l.front.blank,
    hExport.words] at hLength
  exact absurd hLength (by decide)

/-- So no declaration is found, neither before the list nor in it. -/
theorem firstGroups_exportedDeclaration : Regex.firstGroups exportedDeclaration l.text = [] := by
  refine Regex.firstGroups_eq_nil fun start stop h => ?_
  obtain ⟨read, hRead, hDrop, _⟩ := h.exists_read
  obtain ⟨first, word, last, more, hFirst, hFirstSome, hWord, hLast, hLastSome, rfl⟩ :=
    exists_of_mem_language_exportedDeclaration hRead
  have hInfix : "export".toList ++ first ++ word ++ last <:+: l.text := by
    refine ⟨l.text.take start, more ++ l.text.drop stop, ?_⟩
    rw [List.append_assoc, ← List.append_assoc _ more, ← hDrop, List.take_append_drop]
  have hInner : ∀ c ∈ "export".toList ++ first ++ word ++ last, isInner c = true := by
    simp only [List.forall_mem_append]
    exact ⟨⟨⟨inner_of_mem_syntaxWords export_mem_syntaxWords, (Gap.mk first hFirst).inner⟩,
      inner_of_mem_syntaxWords (mem_syntaxWords_of_mem_declarators hWord)⟩,
      (Gap.mk last hLast).inner⟩
  have hApart : ∀ c, isInner c = false → c ∉ "export".toList ++ first ++ word ++ last :=
    fun c hC hMem => absurd (hInner c hMem) (by simp [hC])
  have hDeclares : ∀ {cs : List Char}, "export".toList ++ first ++ word ++ last <:+: cs →
      Declares (words cs) :=
    declares_of_infix hFirst hFirstSome hWord hLast hLastSome
  rw [text, ← head] at hInfix
  rcases infix_or_infix_of_infix_append_cons (hApart '\x7b' (by decide)) hInfix with hPart | hInside
  · exact l.not_declares_head (hDeclares hPart)
  · rcases infix_or_infix_of_infix_append_cons (hApart '\x7d' (by decide)) hInside with hList | hBack
    · obtain ⟨piece, hPiece, hPart⟩ :=
        exists_infix_of_infix_intercalate (hApart ',' (by decide)) (by simp) hList
      rcases List.mem_append.1 hPiece with hEntry | hGap
      · obtain ⟨e, _, rfl⟩ := List.mem_map.1 hEntry
        exact e.not_declares (hDeclares hPart)
      · obtain ⟨g, _, rfl⟩ := List.mem_map.1 hGap
        exact g.not_declares (hDeclares hPart)
    · exact l.back.not_declares (hDeclares hBack)

/-- Exactly the local names are found, in order, if and only if there is a space on either side of
each keyword and no name behind a comma is that word between spaces. All other blanks make no
difference. -/
theorem exports_layout (l : ExportList) :
    (facts (String.ofList l.text)).exports = l.entries.map (String.ofList ·.name.chars) ↔
      (∀ e ∈ l.entries, ∀ a ∈ e.renamed, a.Spaced) ∧ ∀ e ∈ l.rest, ¬e.Mistaken := by
  have hExports : (facts (String.ofList l.text)).exports =
      (localNames l.body).map String.ofList := by
    simp only [facts, String.toList_ofList, l.firstGroups_exportedDeclaration,
      l.firstGroups_exportedList, l.firstGroups_moduleExports, List.flatMap_cons, List.flatMap_nil,
      List.append_nil, List.nil_append]
  have hNames : l.entries.map (String.ofList ·.name.chars) =
      (l.entries.map (·.name.chars)).map String.ofList := by
    rw [List.map_map]
    rfl
  have hInjective : Function.Injective String.ofList := fun _ _ => String.ofList_inj.1
  rw [hExports, hNames, hInjective.list_map.eq_iff]
  exact l.localNames_body_iff

/-- The names `a`, given the name `b`, and `as`, with some blank before the keyword and some blank
behind the comma. -/
def ofBlanks (c d : Char) (hC : isBlank c = true) (hD : isBlank d = true) : ExportList where
  front := .none
  behindExport := .ofBlank ' ' rfl
  first := {
    before := .ofBlank ' ' rfl
    name := ⟨['a'], by simp, List.forall_mem_singleton.2 rfl⟩
    renamed := some {
      before := .ofBlank c hC
      behind := .ofBlank ' ' rfl
      before_ne_nil := List.cons_ne_nil c []
      behind_ne_nil := List.cons_ne_nil ' ' []
      name := ⟨['b'], by simp, List.forall_mem_singleton.2 rfl⟩ }
    behind := .none }
  rest := [{
    before := .ofBlank d hD
    name := ⟨keyword, by decide, List.all_eq_true.1 rfl⟩
    renamed := none
    behind := .ofBlank ' ' rfl }]
  trailing := none
  back := .none

theorem exports_layout_blanks :
    (facts "export \x7b a as b,\nas \x7d").exports = ["a", "as"] ∧
    (facts "export \x7b a\tas b,\nas \x7d").exports ≠ ["a", "as"] ∧
    (facts "export \x7b a as b, as \x7d").exports ≠ ["a", "as"] := by
  have hFound : ∀ (c d : Char) (hC : isBlank c = true) (hD : isBlank d = true),
      (facts (String.ofList (ofBlanks c d hC hD).text)).exports = ["a", "as"] ↔ c = ' ' ∧ d ≠ ' ' := by
    intro c d hC hD
    refine (exports_layout (ofBlanks c d hC hD)).trans ?_
    simp [ofBlanks, Gap.ofBlank, entries, Alias.Spaced, Entry.Mistaken, Entry.tail, keyword]
  refine ⟨(hFound ' ' '\n' rfl rfl).2 (by decide), fun h => ?_, fun h => ?_⟩
  · exact absurd ((hFound '\t' '\n' rfl rfl).1 h) (by decide)
  · exact absurd ((hFound ' ' ' ' rfl rfl).1 h) (by decide)

end ExportList

end SourceSurvey.Idiom
