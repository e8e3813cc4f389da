import SourceSurvey.Regex.Build
import SourceSurvey.Regex.Match
import Mathlib.Computability.Language

/-!
The texts that an expression describes, as a language. What is read from one place of a match to
another is such a text, and what a group captures is one of the expression in the group.
-/

/-- Sets of texts, with the operations of languages. -/
abbrev TextSet := Language Char

namespace SourceSurvey

/-- So many repetitions are within the bounds. -/
def Bounds.Allows (bounds : Bounds) (count : Nat) : Prop :=
  bounds.least ≤ count ∧ ∀ most, bounds.most = some most → count ≤ max bounds.least most

namespace Regex

/-- The texts that are put together from so many texts of a language. -/
def times (L : TextSet) (allowed : Nat → Prop) : TextSet :=
  {read | ∃ pieces : List (List Char), allowed pieces.length ∧ (∀ piece ∈ pieces, piece ∈ L) ∧
    read = pieces.flatten}

/-- The texts that the expression describes, whatever its anchors ask for. -/
def language : Regex → TextSet
  | empty | anchor _ => 1
  | set s => {read | ∃ c, s.contains c = true ∧ read = [c]}
  | seq r s => r.language * s.language
  | alt r s => r.language + s.language
  | span s bounds => {read | bounds.Allows read.length ∧ ∀ c ∈ read, s.contains c = true}
  | «repeat» r bounds => times r.language bounds.Allows
  | group _ r => r.language

@[simp]
theorem language_text (s : String) : (text s).language = {s.toList} := by
  rw [text, literal]
  induction s.toList with
  | nil => rfl
  | cons d rest ih =>
      rw [List.foldr_cons, language, ih]
      ext read
      rw [Language.mem_mul]
      constructor
      · rintro ⟨_, ⟨e, hE, rfl⟩, _, rfl, rfl⟩
        rw [CharSet.contains, List.contains_iff_mem, List.mem_singleton] at hE
        rw [hE]
        rfl
      · rintro rfl
        exact ⟨[d], ⟨d, by simp [CharSet.contains], rfl⟩, rest, rfl, rfl⟩

/-- A fixed text is matched by itself only. -/
theorem mem_language_text {s : String} {read : List Char} (h : read ∈ (text s).language) :
    read = s.toList := by
  rw [language_text] at h
  exact h

/-- The groups of an expression with their numbers. -/
def groups : Regex → List (Nat × Regex)
  | empty | anchor _ | set _ | span _ _ => []
  | seq r s | alt r s => r.groups ++ s.groups
  | «repeat» r _ => r.groups
  | group number r => (number, r) :: r.groups

/-- To ignore letter case leaves the groups with their numbers. -/
theorem groups_ignoringCase (r : Regex) :
    r.ignoringCase.groups = r.groups.map fun g => (g.1, g.2.ignoringCase) := by
  induction r with
  | empty | anchor _ | set _ | span _ _ => rfl
  | seq r s ihr ihs | alt r s ihr ihs =>
      rw [ignoringCase, groups, groups, ihr, ihs, List.map_append]
  | «repeat» r _ ih => exact ih
  | group number r ih => rw [ignoringCase, groups, groups, ih, List.map_cons]

@[simp]
theorem groups_text (s : String) : (text s).groups = [] := by
  rw [text, literal]
  induction s.toList with
  | nil => rfl
  | cons c rest ih => exact ih

@[simp]
theorem groups_sequence (parts : List Regex) : (sequence parts).groups = parts.flatMap groups := by
  induction parts with
  | nil => rfl
  | cons r rest ih =>
      rw [List.flatMap_cons, ← ih]
      rfl

@[simp]
theorem groups_choice (options : List Regex) : (choice options).groups = options.flatMap groups := by
  induction options with
  | nil => rfl
  | cons r rest ih =>
      cases rest with
      | nil => simp [choice]
      | cons s rest =>
          rw [List.flatMap_cons, ← ih]
          rfl

section

variable (s : CharSet) (r : Regex)

@[simp]
theorem groups_any : (any s).groups = [] := rfl

@[simp]
theorem groups_many : (many s).groups = [] := rfl

@[simp]
theorem groups_few : (few s).groups = [] := rfl

@[simp]
theorem groups_optional : (optional r).groups = r.groups := rfl

@[simp]
theorem groups_repeated : (repeated r).groups = r.groups := rfl

@[simp]
theorem groups_captured : (captured r).groups = (1, r) :: r.groups := rfl

end

theorem mem_language_many {s : CharSet} {read : List Char} (h : read ∈ (many s).language) :
    read ≠ [] ∧ ∀ c ∈ read, s.contains c = true :=
  ⟨List.ne_nil_of_length_pos h.1.1, h.2⟩

theorem mem_language_optional {r : Regex} {read : List Char} (h : read ∈ (optional r).language) :
    read = [] ∨ read ∈ r.language := by
  obtain ⟨pieces, ⟨_, hMost⟩, hPieces, rfl⟩ := h
  have hFew : pieces.length ≤ 1 := hMost 1 rfl
  match pieces with
  | [] => exact .inl rfl
  | [piece] =>
      rw [List.flatten_cons, List.flatten_nil, List.append_nil]
      exact .inr (hPieces piece List.mem_cons_self)
  | _ :: _ :: _ => exact absurd hFew (by simp)

theorem mem_language_choice {options : List Regex} (hSome : options ≠ []) {read : List Char}
    (h : read ∈ (choice options).language) : ∃ r ∈ options, read ∈ r.language := by
  induction options with
  | nil => exact absurd rfl hSome
  | cons r rest ih =>
      cases rest with
      | nil => exact ⟨r, List.mem_cons_self, h⟩
      | cons s rest =>
          rcases h with hFirst | hLater
          · exact ⟨r, List.mem_cons_self, hFirst⟩
          · obtain ⟨other, hOther, hRead⟩ := ih (List.cons_ne_nil s rest) hLater
            exact ⟨other, List.mem_cons_of_mem r hOther, hRead⟩

section

variable {L : TextSet} {allowed allowed' : Nat → Prop} {read : List Char}

theorem nil_mem_times (h : allowed 0) : [] ∈ times L allowed :=
  ⟨[], h, fun _ hMem => (nomatch hMem), rfl⟩

theorem append_mem_times {piece : List Char} (hPiece : piece ∈ L) (h : read ∈ times L allowed)
    (hAllowed : ∀ count, allowed count → allowed' (count + 1)) :
    piece ++ read ∈ times L allowed' := by
  obtain ⟨pieces, hCount, hPieces, rfl⟩ := h
  exact ⟨piece :: pieces, hAllowed _ hCount, List.forall_mem_cons.2 ⟨hPiece, hPieces⟩, rfl⟩

/-- More repetitions allow more texts. -/
theorem times_mono (hAllowed : ∀ count, allowed count → allowed' count)
    (h : read ∈ times L allowed) : read ∈ times L allowed' := by
  obtain ⟨pieces, hCount, hPieces, rfl⟩ := h
  exact ⟨pieces, hAllowed _ hCount, hPieces, rfl⟩

end

end Regex

namespace Cursor

/-- A place in a text. -/
def IsIn (text : List Char) (cur : Cursor) : Prop := cur.rest = text.drop cur.index

/-- The text from one place to a later one is in a language. -/
def Reads (L : TextSet) (cur cur' : Cursor) : Prop :=
  ∃ read ∈ L, cur.rest = read ++ cur'.rest ∧ cur'.index = cur.index + read.length

variable {text : List Char} {L L' : TextSet} {cur cur' cur'' : Cursor}

theorem Reads.refl (cur : Cursor) : cur.Reads 1 cur :=
  ⟨[], Language.nil_mem_one, rfl, rfl⟩

/-- What is read in two steps is read by the sequence. -/
theorem Reads.trans (h : cur.Reads L cur') (h' : cur'.Reads L' cur'') :
    cur.Reads (L * L') cur'' := by
  obtain ⟨read, hRead, hRest, hIndex⟩ := h
  obtain ⟨read', hRead', hRest', hIndex'⟩ := h'
  refine ⟨read ++ read', Language.append_mem_mul hRead hRead', ?_, ?_⟩
  · rw [hRest, hRest', List.append_assoc]
  · rw [hIndex', hIndex, List.length_append, Nat.add_assoc]

theorem Reads.mono (hMore : ∀ read ∈ L, read ∈ L') (h : cur.Reads L cur') : cur.Reads L' cur' := by
  obtain ⟨read, hRead, hRest, hIndex⟩ := h
  exact ⟨read, hMore read hRead, hRest, hIndex⟩

/-- A place in a text stays one while the text is read. -/
theorem Reads.isIn (h : cur.Reads L cur') (hIn : cur.IsIn text) : cur'.IsIn text := by
  obtain ⟨read, _, hRest, hIndex⟩ := h
  rw [IsIn] at hIn
  rw [IsIn, hIndex, ← List.drop_drop, ← hIn, hRest, List.drop_left]

/-- The text between the two places. -/
theorem Reads.take_mem (h : cur.Reads L cur') (hIn : cur.IsIn text) :
    (text.drop cur.index).take (cur'.index - cur.index) ∈ L := by
  obtain ⟨read, hRead, hRest, hIndex⟩ := h
  rwa [← hIn, hRest, hIndex, Nat.add_sub_cancel_left, List.take_left]

theorem isIn_start (text : List Char) : (start text).IsIn text := rfl

theorem IsIn.next {before before' : Option Char} {index : Nat} {c : Char} {rest : List Char}
    (h : (⟨before, index, c :: rest⟩ : Cursor).IsIn text) :
    (⟨before', index + 1, rest⟩ : Cursor).IsIn text := by
  change c :: rest = text.drop index at h
  change rest = text.drop (index + 1)
  rw [← List.drop_drop, ← h, List.drop_one, List.tail_cons]

theorem IsIn.skipTo (h : cur.IsIn text) (index : Nat) : (cur.skipTo index).IsIn text := by
  change cur.rest.drop (index - cur.index) =
    text.drop (cur.index + (cur.rest.take (index - cur.index)).length)
  rw [IsIn] at h
  rw [← List.drop_drop, ← h, List.length_take]
  rcases Nat.le_total (index - cur.index) cur.rest.length with hLess | hMore
  · rw [Nat.min_eq_left hLess]
  · rw [Nat.min_eq_right hMore, List.drop_length, List.drop_eq_nil_of_le hMore]

end Cursor

namespace Regex

/-- What a captured group holds: a text of the expression in one of the groups of its number. -/
def Holds (text : List Char) (groups : List (Nat × Regex)) (e : Nat × Nat × Nat) : Prop :=
  ∃ inner, (e.1, inner) ∈ groups ∧ (text.drop e.2.1).take (e.2.2 - e.2.1) ∈ inner.language

/-- From a place with some captures to a later one: the text between the places is in a language,
what has been captured is held by some groups, and no trail is kept where none was kept before. -/
structure Advances (text : List Char) (L : TextSet) (groups : List (Nat × Regex))
    (cur : Cursor) (t : Thread) (cur' : Cursor) (t' : Thread) : Prop where
  reads : cur.Reads L cur'
  captures : ∀ e ∈ t'.captures, e ∈ t.captures ∨ Holds text groups e
  trail : t.trail = none → t'.trail = none

end Regex

namespace Thread

/-- The other thread differs in its trail at most, and keeps none if the first does not. -/
structure SameCaptures (t t' : Thread) : Prop where
  captures : t'.captures = t.captures
  trail : t.trail = none → t'.trail = none

variable {t t' : Thread}

theorem SameCaptures.refl (t : Thread) : t.SameCaptures t := ⟨rfl, id⟩

theorem SameCaptures.read (h : t.SameCaptures t') (met : List Spot) :
    t.SameCaptures (t'.read met) :=
  ⟨h.captures, fun hNone => by rw [Thread.read, h.trail hNone, Option.map_none]⟩

theorem sameCaptures_of_meet? {spot : Spot} (h : t.meet? spot = some t') : t.SameCaptures t' := by
  rw [meet?] at h
  split at h
  · cases h
    exact .refl t
  · rename_i trail hTrail
    split at h
    · cases h
    · cases h
      exact ⟨rfl, fun hNone => by rw [hTrail] at hNone; cases hNone⟩

end Thread

namespace Regex

section

variable {α : Type} {text : List Char} {L L' : TextSet} {G G' : List (Nat × Regex)}
  {cur cur' cur'' : Cursor} {t t' t'' : Thread}

theorem Advances.of_reads (h : cur.Reads L cur') (hSame : t.SameCaptures t') :
    Advances text L G cur t cur' t' :=
  ⟨h, fun _ hE => .inl (hSame.captures ▸ hE), hSame.trail⟩

/-- Two advances in a row, the captures of the first being kept by the second. -/
theorem Advances.trans (h : Advances text L G cur t cur' t')
    (h' : Advances text L' G cur' t' cur'' t'') :
    Advances text (L * L') G cur t cur'' t'' := by
  refine ⟨h.reads.trans h'.reads, ?_, h'.trail ∘ h.trail⟩
  intro e hE
  rcases h'.captures e hE with hOld | hNew
  · exact h.captures e hOld
  · exact .inr hNew

theorem Advances.mono (hMore : ∀ read ∈ L, read ∈ L') (hGroups : G ⊆ G')
    (h : Advances text L G cur t cur' t') : Advances text L' G' cur t cur' t' := by
  refine ⟨h.reads.mono hMore, ?_, h.trail⟩
  intro e hE
  refine (h.captures e hE).imp id ?_
  rintro ⟨inner, hInner, hText⟩
  exact ⟨inner, hGroups hInner, hText⟩

/-- To meet a choice captures nothing. -/
theorem Advances.of_meet? {spot : Spot} (hMeet : t.meet? spot = some t')
    (h : Advances text L G cur t' cur' t'') : Advances text L G cur t cur' t'' :=
  have hSame := Thread.sameCaptures_of_meet? hMeet
  ⟨h.reads, hSame.captures ▸ h.captures, h.trail ∘ hSame.trail⟩

/-- Whatever succeeds by way of `step` succeeds at a place to which the text advances. -/
def StepAdvances (text : List Char) (L : TextSet) (G : List (Nat × Regex))
    (step : Cursor → Thread → (Cursor → Thread → Option α) → Option α) : Prop :=
  ∀ ⦃cur t k a⦄, cur.IsIn text → step cur t k = some a →
    ∃ cur' t', Advances text L G cur t cur' t' ∧ k cur' t' = some a

/-- A step with another behind it advances if both do, for any continuation. -/
theorem StepAdvances.trans {step step' : Cursor → Thread → (Cursor → Thread → Option α) → Option α}
    (h : StepAdvances text L G step) (h' : StepAdvances text L' G step') :
    StepAdvances text (L * L') G
      fun cur t k => step cur t fun cur' t' => step' cur' t' k := by
  intro cur t k a hIn hRun
  obtain ⟨cur', t', hFirst, hRest⟩ := h hIn hRun
  obtain ⟨cur'', t'', hSecond, hEnd⟩ := h' (hFirst.reads.isIn hIn) hRest
  exact ⟨cur'', t'', hFirst.trans hSecond, hEnd⟩

theorem StepAdvances.mono {step : Cursor → Thread → (Cursor → Thread → Option α) → Option α}
    (hMore : ∀ read ∈ L, read ∈ L') (hGroups : G ⊆ G') (h : StepAdvances text L G step) :
    StepAdvances text L' G' step := by
  intro cur t k a hIn hRun
  obtain ⟨cur', t', hAdvances, hEnd⟩ := h hIn hRun
  exact ⟨cur', t', hAdvances.mono hMore hGroups, hEnd⟩

section

variable {step : Nat → Cursor → Thread → (Cursor → Thread → Option α) → Option α}
  {must spare must' spare' : Nat}

/-- One more copy before so many others. -/
theorem mul_times_subset (hLeast : must' ≤ must + 1) (hMost : must + spare + 1 ≤ must' + spare') :
    ∀ read ∈ L * times L (fun count => must ≤ count ∧ count ≤ must + spare),
      read ∈ times L fun count => must' ≤ count ∧ count ≤ must' + spare' := by
  intro read hRead
  obtain ⟨piece, hPiece, others, hOthers, rfl⟩ := Language.mem_mul.1 hRead
  exact append_mem_times hPiece hOthers fun count hCount => by omega

/-- By induction over the repetitions that may still follow. -/
theorem extend_advances (hStep : ∀ count, StepAdvances text L G (step count)) (spot : Nat → Spot)
    (greedy : Bool) (spare count : Nat) :
    StepAdvances text (times L fun count => 0 ≤ count ∧ count ≤ 0 + spare) G
      fun cur t k => extend step spot greedy k spare count cur t := by
  have hHere : ∀ {spare : Nat}, ∀ read ∈ (1 : TextSet),
      read ∈ times L fun count => 0 ≤ count ∧ count ≤ 0 + spare := by
    intro spare read hRead
    rw [(Language.mem_one _).1 hRead]
    exact nil_mem_times ⟨Nat.le_refl 0, by omega⟩
  induction spare generalizing count with
  | zero =>
      intro cur t k a _ hRun
      simp only [extend] at hRun
      exact ⟨cur, t, .of_reads ((Cursor.Reads.refl cur).mono hHere) (.refl t), hRun⟩
  | succ spare ih =>
      intro cur t k a hIn hRun
      dsimp only at hRun
      rw [extend] at hRun
      split at hRun
      · cases hRun
      · rename_i there hMeet
        -- Either no copy follows, or a copy and then what may follow it.
        have hCases : k cur there = some a ∨ (step count cur there fun cur' t' =>
            extend step spot greedy k spare (count + 1) cur' t') = some a := by
          simp only [Option.orElse_eq_or] at hRun
          split at hRun
          · exact (Option.or_eq_some_iff.1 hRun).symm.imp And.right id
          · exact (Option.or_eq_some_iff.1 hRun).imp id And.right
        rcases hCases with hDone | hGoes
        · exact ⟨cur, there, .of_meet? hMeet
            (.of_reads ((Cursor.Reads.refl cur).mono hHere) (.refl there)), hDone⟩
        · obtain ⟨cur', t', hAdvances, hEnd⟩ := ((hStep count).trans (ih (count + 1))) hIn hGoes
          exact ⟨cur', t', .of_meet? hMeet (hAdvances.mono
            (mul_times_subset (Nat.zero_le _) (by omega)) (List.Subset.refl G)), hEnd⟩

/-- The repetitions that must come, and those that may follow them. -/
theorem iterate_advances (hStep : ∀ count, StepAdvances text L G (step count)) (spot : Nat → Spot)
    (greedy : Bool) (spare must count : Nat) :
    StepAdvances text (times L fun count => must ≤ count ∧ count ≤ must + spare) G
      fun cur t k => iterate step spot greedy k spare must count cur t := by
  induction must generalizing count with
  | zero =>
      intro cur t k a hIn hRun
      exact extend_advances hStep spot greedy spare count hIn hRun
  | succ must ih =>
      intro cur t k a hIn hRun
      dsimp only at hRun
      rw [iterate] at hRun
      exact (((hStep count).trans (ih (count + 1))).mono (mul_times_subset (by omega) (by omega))
        (List.Subset.refl G)) hIn hRun

end

theorem exists_of_firstSuccess {k : Cursor → Option α} {places : List Cursor} {a : α}
    (h : firstSuccess k places = some a) : ∃ cur ∈ places, k cur = some a := by
  induction places with
  | nil => cases h
  | cons cur places ih =>
      rw [firstSuccess] at h
      split at h
      · rename_i hFirst
        exact ⟨cur, List.mem_cons_self, hFirst.trans h⟩
      · obtain ⟨cur', hMem, hCur⟩ := ih h
        exact ⟨cur', List.mem_cons_of_mem _ hMem, hCur⟩

/-- The characters up to a place of a span are in its set, and not more than the limit. -/
theorem exists_of_mem_spanPlaces {s : CharSet} {limit : Option Nat} {before : Option Char}
    {index read n : Nat} {rest : List Char} {place : Cursor}
    (hLimit : ∀ most, limit = some most → read ≤ most)
    (h : (n, place) ∈ spanPlaces s limit before index read rest) :
    ∃ chars, (∀ c ∈ chars, s.contains c = true) ∧ rest = chars ++ place.rest ∧
      place.index = index + chars.length ∧ n = read + chars.length ∧
      ∀ most, limit = some most → n ≤ most := by
  induction rest generalizing before index read with
  | nil =>
      cases List.mem_singleton.1 h
      exact ⟨[], by simp, rfl, rfl, rfl, hLimit⟩
  | cons c rest ih =>
      rw [spanPlaces, List.mem_cons] at h
      rcases h with hHere | hLater
      · cases hHere
        exact ⟨[], by simp, rfl, rfl, rfl, hLimit⟩
      · split at hLater
        · rename_i hC
          rw [Bool.and_eq_true] at hC
          have hNext : ∀ most, limit = some most → read + 1 ≤ most := by
            rintro most rfl
            exact of_decide_eq_true hC.1
          obtain ⟨chars, hChars, hRest, hIndex, hRead, hMost⟩ := ih hNext hLater
          refine ⟨c :: chars, List.forall_mem_cons.2 ⟨hC.2, hChars⟩, congrArg (c :: ·) hRest, ?_, ?_,
            hMost⟩
          · rw [hIndex, List.length_cons]
            omega
          · rw [hRead, List.length_cons]
            omega
        · cases hLater

/-- Wherever a run of characters of a set may end, what is before it is one of the texts of that
run. -/
theorem reads_of_mem_spanEnds {s : CharSet} {bounds : Bounds} (h : cur' ∈ spanEnds s bounds cur) :
    cur.Reads (span s bounds).language cur' := by
  have hMem : cur' ∈ (spanPlaces s bounds.most cur.before cur.index 0 cur.rest).filterMap
      fun place => if bounds.least ≤ place.1 then some place.2 else none := by
    rw [spanEnds] at h
    split at h
    · exact List.mem_reverse.1 h
    · exact h
  obtain ⟨⟨read, place⟩, hPlace, hEnd⟩ := List.mem_filterMap.1 hMem
  obtain ⟨hLeast, hSame⟩ := Option.ite_none_right_eq_some.1 hEnd
  cases hSame
  obtain ⟨chars, hChars, hRest, hIndex, hRead, hMost⟩ :=
    exists_of_mem_spanPlaces (fun _ _ => Nat.zero_le _) hPlace
  rw [Nat.zero_add] at hRead
  refine ⟨chars, ⟨⟨hRead ▸ hLeast, fun most hLimit => ?_⟩, hChars⟩, hRest, hIndex⟩
  exact hRead ▸ Nat.le_trans (hMost most hLimit) (Nat.le_max_right _ _)

/-- An expression that cannot read describes no text but the empty one. -/
theorem eq_nil_of_mem_language {r : Regex} (h : r.canRead = false) {read : List Char}
    (hRead : read ∈ r.language) : read = [] := by
  induction r generalizing read with
  | empty | anchor _ => exact (Language.mem_one _).1 hRead
  | set _ | span _ _ => cases h
  | seq r s ihr ihs =>
      obtain ⟨hr, hs⟩ := Bool.or_eq_false_iff.1 h
      obtain ⟨first, hFirst, second, hSecond, rfl⟩ := Language.mem_mul.1 hRead
      rw [ihr hr hFirst, ihs hs hSecond, List.append_nil]
  | alt r s ihr ihs =>
      obtain ⟨hr, hs⟩ := Bool.or_eq_false_iff.1 h
      exact hRead.elim (ihr hr) (ihs hs)
  | «repeat» r _ ih =>
      obtain ⟨pieces, _, hPieces, rfl⟩ := hRead
      exact List.flatten_eq_nil_iff.2 fun piece hPiece => ih h (hPieces piece hPiece)
  | group _ r ih => exact ih h hRead

/-- What cannot read describes the same text however often it is repeated, so that once will do. -/
theorem mem_times_of_once {r : Regex} (h : r.canRead = false) {bounds : Bounds} {read : List Char}
    (hRead : read ∈ times r.language bounds.once.Allows) :
    read ∈ times r.language bounds.Allows := by
  obtain ⟨pieces, ⟨hLeast, hMost⟩, hPieces, rfl⟩ := hRead
  have hOnce := hMost _ rfl
  rw [Bounds.once] at hLeast hOnce
  cases pieces with
  | nil =>
      refine nil_mem_times ⟨?_, fun most _ => Nat.zero_le _⟩
      simp only [List.length_nil] at hLeast
      omega
  | cons piece others =>
      have hPiece := hPieces piece List.mem_cons_self
      have hEmpty : (piece :: others).flatten = [] :=
        List.flatten_eq_nil_iff.2 fun other hOther => eq_nil_of_mem_language h (hPieces other hOther)
      refine ⟨List.replicate (max bounds.least 1) piece, ⟨?_, fun most hMost => ?_⟩, ?_, ?_⟩
      · rw [List.length_replicate]
        exact Nat.le_max_left _ _
      · rw [hMost] at hOnce
        simp only [List.length_cons, Option.map_some, Option.getD_some] at hOnce
        rw [List.length_replicate]
        omega
      · exact fun other hOther => List.eq_of_mem_replicate hOther ▸ hPiece
      · rw [hEmpty, List.flatten_eq_nil_iff.2]
        exact fun other hOther =>
          List.eq_of_mem_replicate hOther ▸ eq_nil_of_mem_language h hPiece

/-- A run of characters reads one of its texts, and captures nothing. -/
theorem run_span_advances (s : CharSet) (bounds : Bounds) (spot : Spot) :
    StepAdvances (α := α) text (span s bounds).language G (run (span s bounds) spot) := by
  intro cur t k a _ hRun
  rw [run] at hRun
  split at hRun
  · cases hRun
  · rename_i there hMeet
    obtain ⟨cur', hEnd, hCur⟩ := exists_of_firstSuccess hRun
    have hSame : t.SameCaptures there := by
      split at hMeet
      · exact Thread.sameCaptures_of_meet? hMeet
      · cases hMeet
        exact .refl t
    refine ⟨cur', _, .of_reads (reads_of_mem_spanEnds hEnd) ?_, hCur⟩
    split
    · exact hSame
    · exact hSame.read _

/-- There are no more repetitions than the bounds allow. -/
theorem iterate_advances_allowed
    {step : Nat → Cursor → Thread → (Cursor → Thread → Option α) → Option α}
    (hStep : ∀ count, StepAdvances text L G (step count)) (spot : Nat → Spot) (bounds : Bounds) :
    StepAdvances text (times L bounds.Allows) G fun cur t k =>
      iterate step spot bounds.greedy k (bounds.spare cur.rest.length) bounds.least 0 cur t := by
  intro cur t k a hIn hRun
  obtain ⟨cur', t', hAdvances, hEnd⟩ := iterate_advances hStep spot _ _ _ _ hIn hRun
  refine ⟨cur', t', hAdvances.mono (fun read => times_mono ?_) (List.Subset.refl G), hEnd⟩
  rintro count ⟨hLeast, hMost⟩
  refine ⟨hLeast, fun most hLimit => ?_⟩
  rw [Bounds.spare, hLimit] at hMost
  dsimp only at hMost
  omega

/-- A repeated expression reads as often as it may what the expression reads, and if that can only be
the empty text, it need not read more than once. -/
theorem run_repeat_advances {r : Regex} (bounds : Bounds) (spot : Spot)
    (hInner : ∀ spot, StepAdvances (α := α) text r.language r.groups (run r spot)) :
    StepAdvances (α := α) text («repeat» r bounds).language r.groups
      (run («repeat» r bounds) spot) := by
  intro cur t k a hIn hRun
  rw [run] at hRun
  cases hReads : r.canRead with
  | true =>
      exact iterate_advances_allowed (fun _ => hInner _) _ bounds hIn (by simpa [hReads] using hRun)
  | false =>
      obtain ⟨cur', t', hAdvances, hEnd⟩ := iterate_advances_allowed (fun _ => hInner _) _
        bounds.once hIn (by simpa [hReads] using hRun)
      exact ⟨cur', t', hAdvances.mono (fun _ => mem_times_of_once hReads) (List.Subset.refl _), hEnd⟩

/-- Matching an expression reads a text of its language, and captures texts of its groups. -/
theorem run_advances (r : Regex) (spot : Spot) :
    StepAdvances (α := α) text r.language r.groups (run r spot) := by
  induction r generalizing spot with
  | empty =>
      intro cur t k a _ hRun
      exact ⟨cur, t, .of_reads (.refl cur) (.refl t), hRun⟩
  | anchor _ =>
      intro cur t k a _ hRun
      rw [run, Option.ite_none_right_eq_some] at hRun
      exact ⟨cur, t, .of_reads (.refl cur) (.refl t), hRun.2⟩
  | set s =>
      intro cur t k a _ hRun
      obtain ⟨before, index, rest⟩ := cur
      cases rest with
      | nil => cases hRun
      | cons c rest =>
          rw [run, Option.ite_none_right_eq_some] at hRun
          exact ⟨_, t.read [], .of_reads ⟨[c], ⟨c, hRun.1, rfl⟩, rfl, rfl⟩ (.read (.refl t) []), hRun.2⟩
  | span s bounds => exact run_span_advances s bounds spot
  | seq r s ihr ihs =>
      intro cur t k a hIn hRun
      have hFirst := (ihr (0 :: spot)).mono (fun _ => id) (List.subset_append_left r.groups s.groups)
      have hSecond := (ihs (1 :: spot)).mono (fun _ => id)
        (List.subset_append_right r.groups s.groups)
      exact hFirst.trans hSecond hIn hRun
  | alt r s ihr ihs =>
      intro cur t k a hIn hRun
      rw [run] at hRun
      split at hRun
      · cases hRun
      · rename_i there hMeet
        split at hRun
        · rename_i hFirst
          obtain ⟨cur', t', hAdvances, hEnd⟩ := (ihr (0 :: spot)).mono (fun _ => Or.inl)
            (List.subset_append_left r.groups s.groups) hIn (hFirst.trans hRun)
          exact ⟨cur', t', .of_meet? hMeet hAdvances, hEnd⟩
        · obtain ⟨cur', t', hAdvances, hEnd⟩ := (ihs (1 :: spot)).mono (fun _ => Or.inr)
            (List.subset_append_right r.groups s.groups) hIn hRun
          exact ⟨cur', t', .of_meet? hMeet hAdvances, hEnd⟩
  | «repeat» r bounds ih => exact run_repeat_advances bounds spot ih
  | group number r ih =>
      intro cur t k a hIn hRun
      obtain ⟨cur', t', hInside, hRest⟩ :=
        (ih (0 :: spot)).mono (fun _ => id) (List.subset_cons_self (number, r) r.groups) hIn hRun
      refine ⟨cur', { t' with captures := (number, cur.index, cur'.index) :: t'.captures },
        ⟨hInside.reads, ?_, hInside.trail⟩, hRest⟩
      intro e hE
      rcases List.mem_cons.1 hE with rfl | hOther
      · exact .inr ⟨r, List.mem_cons_self, hInside.reads.take_mem hIn⟩
      · exact hInside.captures e hOther

end

end Regex

end SourceSurvey
