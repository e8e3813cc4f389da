import SourceSurvey.Proofs.Complexity
import SourceSurvey.Proofs.Regex.Count

/-!
Scores of texts that grow. Each indicator occurs in a longer text at least as often as in a part of
it, although its matches may become longer: what is matched ends before the next match, since
something between them, that the match cannot read, is still there.
-/

namespace SourceSurvey

namespace Regex

open Cursor

variable {text : List Char} {start stop : Nat}

/-! ### Names behind a word -/

/-- A word, blanks, and a name. -/
def named (s : String) : Regex := sequence [Regex.text s, blanks, many word]

theorem plain_named (s : String) : (named s).plain = true :=
  Bool.and_eq_true_iff.2 ⟨plain_text s, rfl⟩

/-- What is matched is a word, blanks and a name, which goes on as far as it can. -/
theorem exists_of_occurs_named {s : String} (h : (named s).Occurs text start stop) :
    ∃ gap name, (gap ≠ [] ∧ ∀ c ∈ gap, Text.isBlank c = true) ∧
      (name ≠ [] ∧ ∀ c ∈ name, Text.isWord c = true) ∧
      text.drop start = s.toList ++ gap ++ name ++ text.drop stop ∧
      stop = start + s.toList.length + gap.length + name.length ∧
      ∀ c rest, text.drop stop = c :: rest → Text.isWord c = false := by
  obtain ⟨_, m, hMatch, rfl⟩ := h
  have hLoops := hasEmptyLoop_of_plain (plain_named s)
  have hRun : run (Regex.text s) [0] (place text start) ⟨[], none⟩ (fun cur t =>
      run blanks [0, 1] cur t fun cur t => run (many word) [0, 1, 1] cur t fun cur t =>
        some (⟨start, cur.index, t.captures⟩ : Match)) = some m :=
    thread_of_hasEmptyLoop hLoops ▸ hMatch
  obtain ⟨behindWord, _, hWord, hRun⟩ := run_advances _ _ (isIn_place text start) hRun
  have hIn := hWord.reads.isIn (isIn_place text start)
  obtain ⟨behindGap, ⟨_, trail⟩, hGap, hRun⟩ := run_advances _ _ hIn hRun
  cases hGap.trail (hWord.trail rfl)
  obtain ⟨behindName, hName, hEnd, hLongest⟩ := exists_of_run_greedy hRun
  have hIn := hName.isIn (hGap.reads.isIn hIn)
  cases hEnd
  obtain ⟨read, hRead, hWordRest, hWordIndex⟩ := hWord.reads
  obtain ⟨gap, hGapRead, hGapRest, hGapIndex⟩ := hGap.reads
  obtain ⟨name, hNameRead, hNameRest, hNameIndex⟩ := hName
  rw [language_text] at hRead
  cases hRead
  refine ⟨gap, name, mem_language_many hGapRead, mem_language_many hNameRead, ?_, ?_, ?_⟩
  · have hDrop : text.drop start = s.toList ++ (gap ++ (name ++ behindName.rest)) := by
      rw [← hNameRest, ← hGapRest, ← hWordRest, place_rest]
    rw [hDrop, hIn, List.append_assoc, List.append_assoc]
  · rw [hNameIndex, hGapIndex, hWordIndex, place_index]
  · intro c rest hRest
    by_contra hMore
    rw [Bool.not_eq_false] at hMore
    obtain ⟨_, _, hNone⟩ := hLongest [c] rest (by simp) (List.forall_mem_singleton.2 hMore)
      (hIn.trans hRest)
    cases hNone

/-- What has a property only up to some character is not longer than what is before it. -/
theorem length_le_of_append_eq {p : Char → Bool} {xs xs' ys zs : List Char} {c : Char}
    (hChars : ∀ d ∈ xs', p d = true) (hC : p c = false) (h : xs ++ c :: ys = xs' ++ zs) :
    xs'.length ≤ xs.length := by
  by_contra hLonger
  have hInside : xs.length < xs'.length := Nat.lt_of_not_le hLonger
  have hSame := congrArg (·[xs.length]?) h
  simp only [List.getElem?_append_right (Nat.le_refl xs.length), Nat.sub_self,
    List.getElem?_cons_zero, List.getElem?_append_left hInside] at hSame
  rw [hChars c (List.mem_of_getElem? hSame.symm)] at hC
  cases hC

section

variable {s : String} {c : Char} {word : List Char}

/-- Of two names behind a word the later one does not end earlier: the word cannot begin in itself
or in the blanks, and where it begins in a name it is the end of the name. -/
theorem ordered_named (hText : s.toList = c :: word) (hWord : Unbordered (c :: word))
    (hBlank : Text.isBlank c = false) {i j e f : Nat} (hLess : i < j)
    (hFirst : (named s).Occurs text i e) (hSecond : (named s).Occurs text j f) : e ≤ f := by
  obtain ⟨gap, name, ⟨_, hGap⟩, ⟨_, hName⟩, hDrop, hStop, _⟩ := exists_of_occurs_named hFirst
  obtain ⟨gap', name', ⟨hSome', hGap'⟩, _, hDrop', hStop', _⟩ := exists_of_occurs_named hSecond
  obtain ⟨d, gap', rfl⟩ := List.exists_cons_of_ne_nil hSome'
  have hD : Text.isWord d = false :=
    Text.isWord_eq_false_of_isBlank (List.forall_mem_cons.1 hGap').1
  have hSame := drop_of_drop_eq hLess.le hDrop
  rw [hDrop'] at hSame
  rcases Nat.lt_or_ge (j - i) (s.toList.length + gap.length) with hInside | hOutside
  · exfalso
    have hNotIn : c ∉ gap := fun hMem => absurd (hGap c hMem) (by simp [hBlank])
    have hAgain : c :: word <+: (c :: word ++ gap ++ (name ++ text.drop e)).drop (j - i) := by
      rw [← hText, ← List.append_assoc, ← hSame, List.append_assoc, List.append_assoc]
      exact List.prefix_append _ _
    rw [hText] at hInside
    exact hWord.not_prefix_drop hNotIn (by omega) hInside hAgain
  · by_cases hBehind : e ≤ j
    · omega
    obtain ⟨n, hN⟩ : ∃ n, j - i = (s.toList ++ gap).length + n := by
      rw [List.length_append]
      exact Nat.exists_eq_add_of_le hOutside
    rw [hN, List.append_assoc _ name, ← List.drop_drop, List.drop_left] at hSame
    rw [List.length_append] at hN
    rw [List.drop_append_of_le_length (by omega), List.append_assoc, List.append_assoc,
      List.cons_append] at hSame
    have hShort :=
      length_le_of_append_eq (fun c hC => hName c (List.mem_of_mem_drop hC)) hD hSame
    rw [List.length_drop] at hShort
    omega

/-- A name that another match follows ends where it did, whatever is added around the text. -/
theorem stays_named (before behind : List Char) (h : (named s).Occurs text start stop) :
    ∃ stop', (named s).Occurs (before ++ text ++ behind) (before.length + start) stop' ∧
      ∀ j f, stop ≤ j → (named s).Occurs text j f → stop' ≤ before.length + j := by
  have hApart : ∀ {d}, Text.isWord d = true → Text.isBlank d = false := by
    intro d hD
    by_contra hBoth
    rw [Bool.not_eq_false] at hBoth
    exact absurd hD (by simp [Text.isWord_eq_false_of_isBlank hBoth])
  obtain ⟨gap, name, ⟨_, hGap⟩, ⟨hSome, hName⟩, hDrop, hStop, hLongest⟩ :=
    exists_of_occurs_named h
  obtain ⟨stop', hStays⟩ := h.around (plain_named s) before behind
  obtain ⟨gap', name', ⟨_, hGap'⟩, ⟨hSome', hName'⟩, hDrop', hStop', _⟩ :=
    exists_of_occurs_named hStays
  refine ⟨stop', hStays, fun j f hBehind hNext => ?_⟩
  -- the character that ended the name is still there
  obtain ⟨e, others, hEnd⟩ : ∃ e others, text.drop stop = e :: others := by
    refine List.exists_cons_of_length_pos ?_
    obtain ⟨_, _, ⟨_, _⟩, ⟨hNextSome, _⟩, hNextDrop, _⟩ := exists_of_occurs_named hNext
    have hLength := congrArg List.length hNextDrop
    have hNextLength := List.length_pos_of_ne_nil hNextSome
    simp only [List.length_append, List.length_drop] at hLength ⊢
    omega
  have hAround : (before ++ text ++ behind).drop (before.length + start) =
      text.drop start ++ behind := drop_around h.1
  rw [hDrop', hDrop, hEnd] at hAround
  simp only [List.append_assoc, List.append_cancel_left_eq, List.cons_append] at hAround
  obtain ⟨d, name, rfl⟩ := List.exists_cons_of_ne_nil hSome
  obtain ⟨d', name', rfl⟩ := List.exists_cons_of_ne_nil hSome'
  have hD : Text.isBlank d = false := hApart (List.forall_mem_cons.1 hName).1
  have hD' : Text.isBlank d' = false := hApart (List.forall_mem_cons.1 hName').1
  have hGapLength : gap'.length = gap.length :=
    Nat.le_antisymm (length_le_of_append_eq hGap' hD hAround.symm)
      (length_le_of_append_eq hGap hD' hAround)
  obtain ⟨_, hNames⟩ := List.append_inj hAround hGapLength
  have hShort := length_le_of_append_eq hName' (hLongest e others hEnd) hNames.symm
  omega

/-- A word that does not overlap itself is found again wherever the text grows. -/
theorem steady_named (hText : s.toList = c :: word) (hWord : Unbordered (c :: word))
    (hBlank : Text.isBlank c = false) : (named s).Steady where
  nonempty h := by
    obtain ⟨_, _, _, _, _, hStop, _⟩ := exists_of_occurs_named h
    rw [hText, List.length_cons] at hStop
    omega
  ordered hLess hFirst hSecond := ordered_named hText hWord hBlank hLess hFirst hSecond
  stays before behind h := stays_named before behind h

end

/-! ### Annotations in brackets -/

/-- A bracket behind a number sign, and the line up to its last closing bracket. -/
def annotation : Regex := sequence [Regex.text "#[", any inLine, Regex.text "]"]

theorem plain_annotation : annotation.plain = true :=
  Bool.and_eq_true_iff.2 ⟨plain_text "#[", Bool.and_eq_true_iff.2 ⟨rfl, by decide⟩⟩

theorem contains_inLine {c : Char} : inLine.contains c = true ↔ c ≠ '\n' := by
  simp [inLine, noneOf, oneOf, CharSet.contains]

/-- What is matched is a part of a line, from the opening bracket to the last closing one. -/
theorem exists_of_occurs_annotation (h : annotation.Occurs text start stop) :
    ∃ inner, '\n' ∉ inner ∧ text.drop start = '#' :: '[' :: inner ++ ']' :: text.drop stop ∧
      stop = start + inner.length + 3 ∧
      ∀ more rest, text.drop stop = more ++ ']' :: rest → '\n' ∈ more := by
  obtain ⟨_, m, hMatch, rfl⟩ := h
  have hLoops := hasEmptyLoop_of_plain plain_annotation
  have hRun : run (Regex.text "#[") [0] (place text start) ⟨[], none⟩ (fun cur t =>
      run (any inLine) [0, 1] cur t fun cur t => run (Regex.text "]") [0, 1, 1] cur t fun cur t =>
        some (⟨start, cur.index, t.captures⟩ : Match)) = some m :=
    thread_of_hasEmptyLoop hLoops ▸ hMatch
  obtain ⟨behindOpen, ⟨_, trail⟩, hOpen, hRun⟩ := run_advances _ _ (isIn_place text start) hRun
  cases hOpen.trail rfl
  have hIn := hOpen.reads.isIn (isIn_place text start)
  obtain ⟨behindInner, hInner, hRun, hLongest⟩ := exists_of_run_greedy hRun
  have hIn := hInner.isIn hIn
  obtain ⟨behindClose, _, hClose, hEnd⟩ := run_advances _ _ hIn hRun
  have hIn := hClose.reads.isIn hIn
  cases hEnd
  obtain ⟨read, hRead, hOpenRest, hOpenIndex⟩ := hOpen.reads
  obtain ⟨inner, ⟨_, hInnerRead⟩, hInnerRest, hInnerIndex⟩ := hInner
  obtain ⟨last, hLast, hCloseRest, hCloseIndex⟩ := hClose.reads
  rw [language_text] at hRead hLast
  cases hRead
  cases hLast
  refine ⟨inner, fun hMem => contains_inLine.1 (hInnerRead _ hMem) rfl, ?_, ?_, ?_⟩
  · have hDrop : text.drop start = "#[".toList ++ (inner ++ ("]".toList ++ behindClose.rest)) := by
      rw [← hCloseRest, ← hInnerRest, ← hOpenRest, place_rest]
    rw [hDrop, hIn]
    rfl
  · rw [hCloseIndex, hInnerIndex, hOpenIndex, place_index]
    change start + 2 + inner.length + 1 = start + inner.length + 3
    omega
  · intro more rest hRest
    by_contra hNoBreak
    -- the part up to this bracket would have been tried, and would have succeeded
    have hMore : ∀ c ∈ ']' :: more, inLine.contains c = true := by
      refine List.forall_mem_cons.2 ⟨by decide, fun c hC => contains_inLine.2 ?_⟩
      rintro rfl
      exact hNoBreak hC
    have hThere : behindInner.rest = ']' :: more ++ ']' :: rest := by
      rw [hCloseRest, hIn, hRest]
      rfl
    obtain ⟨longer, hLongerRest, hNone⟩ := hLongest _ _ (by simp) hMore hThere
    have hClosing : [']'] ∈ (Regex.text "]").language := by
      rw [language_text]
      rfl
    refine absurd hNone (Option.isSome_iff_ne_none.1 ?_)
    exact isSome_run (plain_text "]") hClosing hLongerRest fun _ _ _ => rfl

/-- An annotation that begins later ends later. -/
theorem ordered_annotation {i j e f : Nat} (hLess : i < j) (hFirst : annotation.Occurs text i e)
    (hSecond : annotation.Occurs text j f) : e ≤ f := by
  obtain ⟨inner, hInner, hDrop, hStop, _⟩ := exists_of_occurs_annotation hFirst
  obtain ⟨_, _, _, hStop', hLast⟩ := exists_of_occurs_annotation hSecond
  by_contra hEarlier
  -- the earlier one ends with a bracket of the same line, which the later one would have reached
  have hBehind : text.drop f = inner.drop (f - i - 2) ++ ']' :: text.drop e := by
    rw [drop_of_drop_eq (by omega : i ≤ f) hDrop]
    obtain ⟨n, hN⟩ : ∃ n, f - i = n + 2 := ⟨f - i - 2, by omega⟩
    rw [hN, Nat.add_sub_cancel]
    change (inner ++ ']' :: text.drop e).drop n = _
    rw [List.drop_append_of_le_length (by omega)]
  exact hInner (List.mem_of_mem_drop (hLast _ _ hBehind))

/-- An annotation that another match follows was on an earlier line, and still is. -/
theorem stays_annotation (before behind : List Char) (h : annotation.Occurs text start stop) :
    ∃ stop', annotation.Occurs (before ++ text ++ behind) (before.length + start) stop' ∧
      ∀ j f, stop ≤ j → annotation.Occurs text j f → stop' ≤ before.length + j := by
  obtain ⟨inner, _, hDrop, hStop, hLast⟩ := exists_of_occurs_annotation h
  obtain ⟨stop', hStays⟩ := h.around plain_annotation before behind
  obtain ⟨inner', hInner', hDrop', hStop', _⟩ := exists_of_occurs_annotation hStays
  refine ⟨stop', hStays, fun j f hBehind hNext => ?_⟩
  obtain ⟨nextInner, hNextInner, hNextDrop, _, _⟩ := exists_of_occurs_annotation hNext
  -- between the two there is a line break, since the bracket of the second is not the last
  have hBreak : '\n' ∈ (text.drop stop).take (j - stop) := by
    have hTo : text.drop stop = ((text.drop stop).take (j - stop) ++ '#' :: '[' :: nextInner) ++
        ']' :: text.drop f := by
      have hSplit := List.take_append_drop (j - stop) (text.drop stop)
      rw [List.drop_drop, Nat.add_sub_cancel' hBehind, hNextDrop] at hSplit
      rw [List.append_assoc]
      exact hSplit.symm
    rcases List.mem_append.1 (hLast _ _ hTo) with hHere | hThere
    · exact hHere
    · simp [hNextInner] at hThere
  by_contra hLonger
  have hRead : '\n' ∈ (text.drop start ++ behind).take (inner'.length + 3) := by
    have hSame : (text.drop stop).take (j - stop) =
        ((text.drop start).take (j - start)).drop (stop - start) := by
      rw [List.drop_take, List.drop_drop, Nat.add_sub_cancel' (by omega)]
      congr 1
      omega
    rw [hSame] at hBreak
    have hTake := List.mem_of_mem_drop hBreak
    have hFirst := List.take_subset_take_left (text.drop start)
      (by omega : j - start ≤ inner'.length + 3) hTake
    rw [List.take_append]
    exact List.mem_append_left _ hFirst
  rw [← drop_around h.1, hDrop'] at hRead
  have hAll : ('#' :: '[' :: inner' ++ ']' :: (before ++ text ++ behind).drop stop').take
      (inner'.length + 3) = '#' :: '[' :: inner' ++ [']'] := by
    rw [List.append_cons]
    exact List.take_left' (by simp)
  rw [hAll] at hRead
  simp [hInner'] at hRead

theorem steady_annotation : annotation.Steady where
  nonempty h := by
    obtain ⟨_, _, _, hStop, _⟩ := exists_of_occurs_annotation h
    omega
  ordered hLess hFirst hSecond := ordered_annotation hLess hFirst hSecond
  stays before behind h := stays_annotation before behind h

end Regex

namespace Complexity

open Regex

theorem steady_promise : (Regex.text "Promise").Steady := by
  refine steady_of_word (plain_text _) (by decide : Unbordered "Promise".toList) fun read hRead => ?_
  rw [language_text] at hRead
  exact ⟨[], by rw [List.append_nil]; exact hRead, List.not_mem_nil⟩

/-- All indicators are found again in a longer text. -/
theorem steady_indicators : ∀ r ∈ indicators, r.Steady := by
  simp only [indicators, List.forall_mem_cons]
  refine ⟨?_, ?_, ?_, ?_, ?_, ?_, ?_, ?_, ?_, ?_, ?_, steady_promise, ?_, steady_annotation, by simp⟩
  · exact steady_named rfl (by decide) (by decide)
  · exact steady_named rfl (by decide) (by decide)
  · exact steady_named rfl (by decide) (by decide)
  all_goals exact steady_of_text rfl rfl (by decide) (by decide)

/-- So a longer text has no fewer of them. -/
theorem indicatorCount_le (before content behind : String) :
    indicatorCount content ≤ indicatorCount (before ++ content ++ behind) := by
  have hSum : ∀ rules : List Regex, (∀ r ∈ rules, r.Steady) →
      total (rules.map fun r => (r.allMatches content.toList).length) ≤
        total (rules.map fun r => (r.allMatches (before ++ content ++ behind).toList).length) := by
    intro rules hSteady
    induction rules with
    | nil => exact Nat.le_refl _
    | cons r rules ih =>
        obtain ⟨hFirst, hRest⟩ := List.forall_mem_cons.1 hSteady
        rw [List.map_cons, List.map_cons, total_cons, total_cons]
        refine Nat.add_le_add ?_ (ih hRest)
        rw [String.toList_append, String.toList_append]
        exact hFirst.length_allMatches_le _ _ _
  exact hSum indicators steady_indicators

/-- Nor has it fewer lines. -/
theorem lineCount_le (before content behind : String) :
    lineCount content ≤ lineCount (before ++ content ++ behind) := by
  by_cases hEmpty : content = ""
  · rw [lineCount_eq_zero_iff.2 hEmpty]
    exact Nat.zero_le _
  · have hMore : before ++ content ++ behind ≠ "" := by
      intro hNone
      have hChars := congrArg String.toList hNone
      simp only [String.toList_append, String.toList_empty, List.append_eq_nil_iff] at hChars
      exact hEmpty (String.toList_eq_nil_iff.1 hChars.1.2)
    have hCount : ∀ {s : String}, s ≠ "" → lineCount s = s.toList.count '\n' + 1 := by
      intro s hS
      rw [lineCount, if_neg (by simpa using hS)]
    rw [hCount hEmpty, hCount hMore]
    simp only [String.toList_append, List.count_append]
    omega

/-- What is added to a file before or behind its content never lowers its score, which is at most
100: it ranks above all files that it has ranked above. -/
theorem score_monotone (before content behind : String) :
    indicatorCount content ≤ indicatorCount (before ++ content ++ behind) ∧
      score content ≤ score (before ++ content ++ behind) ∧ score content ≤ 100 ∧
      ∀ other, score other ≤ score content → score other ≤ score (before ++ content ++ behind) := by
  have hIndicators := indicatorCount_le before content behind
  have hLines := lineCount_le before content behind
  have hScore : score content ≤ score (before ++ content ++ behind) := by
    have hPoints : min maxSizePoints (lineCount content / 10) ≤
        min maxSizePoints (lineCount (before ++ content ++ behind) / 10) :=
      min_le_min_left _ (Nat.div_le_div_right hLines)
    rw [score, score]
    exact min_le_min_left _ (Nat.add_le_add hPoints (Nat.mul_le_mul_left 2 hIndicators))
  exact ⟨hIndicators, hScore, score_le content, fun _ hOther => hOther.trans hScore⟩

end Complexity

end SourceSurvey
