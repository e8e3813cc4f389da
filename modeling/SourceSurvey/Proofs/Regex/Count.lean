import SourceSurvey.Proofs.Regex.Capture
import SourceSurvey.Proofs.Regex.Matches

/-!
How many matches an expression has in a text. The matches that are found one after the other, each
as far left as it can be, are as many as there can be without overlaps, provided that of two places
where the expression matches the later one is never done earlier. If moreover a match stays one
when something is added around the text, then there are at least as many matches as before.
-/

namespace SourceSurvey.Regex

open Cursor

variable {r : Regex} {text : List Char}

/-! ### Expressions that match wherever a text of their language stands -/

/-- The expression has no anchors, and what it repeats are characters, without an upper limit. -/
def plain : Regex → Bool
  | empty | set _ => true
  | anchor _ | «repeat» _ _ => false
  | seq r s | alt r s => r.plain && s.plain
  | span _ bounds => bounds.most.isNone
  | group _ r => r.plain

theorem plain_text (s : String) : (Regex.text s).plain = true := by
  rw [Regex.text, literal]
  induction s.toList with
  | nil => rfl
  | cons d rest ih => exact ih

section

variable {α : Type}

theorem isSome_firstSuccess {k : Cursor → Option α} {places : List Cursor} {cur : Cursor}
    (hMem : cur ∈ places) (h : (k cur).isSome) : (firstSuccess k places).isSome := by
  induction places with
  | nil => cases hMem
  | cons first rest ih =>
      rw [firstSuccess]
      split
      · rfl
      · rename_i hNone
        rcases List.mem_cons.1 hMem with rfl | hLater
        · rw [hNone] at h
          cases h
        · exact ih hLater

/-- A span without upper limit can end behind any characters of its set. -/
theorem exists_mem_spanPlaces {s : CharSet} {before : Option Char} {index n : Nat}
    {chars rest : List Char} (hChars : ∀ c ∈ chars, s.contains c = true) :
    ∃ cur, (n + chars.length, cur) ∈ spanPlaces s none before index n (chars ++ rest) ∧
      cur.index = index + chars.length ∧ cur.rest = rest := by
  induction chars generalizing before index n with
  | nil =>
      refine ⟨⟨before, index, rest⟩, ?_, rfl, rfl⟩
      cases rest <;> simp [spanPlaces]
  | cons c chars ih =>
      obtain ⟨hC, hChars⟩ := List.forall_mem_cons.1 hChars
      obtain ⟨cur, hMem, hIndex, hRest⟩ : ∃ cur, (n + 1 + chars.length, cur) ∈
          spanPlaces s none (some c) (index + 1) (n + 1) (chars ++ rest) ∧
            cur.index = index + 1 + chars.length ∧ cur.rest = rest := ih hChars
      rw [Nat.add_right_comm] at hMem hIndex
      refine ⟨cur, ?_, hIndex, hRest⟩
      rw [List.cons_append, spanPlaces, List.length_cons, ← Nat.add_assoc]
      simp only [Option.all_none, hC, Bool.and_self, if_true]
      exact List.mem_cons_of_mem _ hMem

/-- A run of characters may end behind any that it can have. -/
theorem exists_mem_spanEnds {s : CharSet} {bounds : Bounds} {cur : Cursor} {chars rest : List Char}
    (hMost : bounds.most = none) (hLeast : bounds.least ≤ chars.length)
    (hChars : ∀ c ∈ chars, s.contains c = true) (hRest : cur.rest = chars ++ rest) :
    ∃ cur' ∈ spanEnds s bounds cur, cur'.index = cur.index + chars.length ∧ cur'.rest = rest := by
  obtain ⟨cur', hMem, hEnd⟩ : ∃ cur', (0 + chars.length, cur') ∈
      spanPlaces s none cur.before cur.index 0 (chars ++ rest) ∧
        cur'.index = cur.index + chars.length ∧ cur'.rest = rest := exists_mem_spanPlaces hChars
  refine ⟨cur', ?_, hEnd⟩
  have hPlace : cur' ∈ (spanPlaces s bounds.most cur.before cur.index 0 cur.rest).filterMap
      fun place => if bounds.least ≤ place.1 then some place.2 else none := by
    rw [hMost, hRest]
    refine List.mem_filterMap.2 ⟨_, hMem, ?_⟩
    rw [Nat.zero_add, if_pos hLeast]
  rw [spanEnds]
  split
  · exact List.mem_reverse.2 hPlace
  · exact hPlace

/-- Where no trail is kept, a span may end at each of its ends. -/
theorem run_span {s : CharSet} {bounds : Bounds} {spot : Spot} {cur : Cursor} {caps : Captures}
    {k : Cursor → Thread → Option α} :
    run (span s bounds) spot cur ⟨caps, none⟩ k =
      firstSuccess (k · ⟨caps, none⟩) (spanEnds s bounds cur) := by
  rw [run]
  have hMeet : (if bounds.startsWithChoice then (⟨caps, none⟩ : Thread).meet? spot
      else some ⟨caps, none⟩) = some ⟨caps, none⟩ := ite_self _
  rw [hMeet]
  simp only [Thread.read, Option.map_none, ite_self]

/-- Where a text of the language of a plain expression stands, there is a way through the
expression that ends behind it. -/
theorem isSome_run (hPlain : r.plain = true) {spot : Spot} {cur : Cursor} {caps : Captures}
    {k : Cursor → Thread → Option α} {read rest : List Char} (hRead : read ∈ r.language)
    (hRest : cur.rest = read ++ rest)
    (hNext : ∀ cur' caps', cur'.rest = rest → (k cur' ⟨caps', none⟩).isSome) :
    (run r spot cur ⟨caps, none⟩ k).isSome := by
  induction r generalizing spot cur caps k read rest with
  | empty =>
      rw [(Language.mem_one _).1 hRead] at hRest
      exact hNext cur caps hRest
  | set s =>
      obtain ⟨c, hC, rfl⟩ := hRead
      rw [run, hRest]
      simp only [List.cons_append, List.nil_append, hC, if_true]
      exact hNext _ caps rfl
  | anchor _ | «repeat» _ _ _ => cases hPlain
  | seq r s ihr ihs =>
      obtain ⟨hr, hs⟩ := Bool.and_eq_true_iff.1 hPlain
      obtain ⟨first, hFirst, second, hSecond, rfl⟩ := Language.mem_mul.1 hRead
      rw [List.append_assoc] at hRest
      exact ihr hr hFirst hRest fun cur' caps' hEnd => ihs hs hSecond hEnd hNext
  | alt r s ihr ihs =>
      obtain ⟨hr, hs⟩ := Bool.and_eq_true_iff.1 hPlain
      rw [run]
      simp only [Thread.meet?]
      rcases hRead with hFirst | hSecond
      · have hSome : (run r (0 :: spot) cur ⟨caps, none⟩ k).isSome = true :=
          ihr hr hFirst hRest hNext
        obtain ⟨a, hFound⟩ := Option.isSome_iff_exists.1 hSome
        rw [hFound]
        rfl
      · split
        · rfl
        · exact ihs hs hSecond hRest hNext
  | span s bounds =>
      obtain ⟨⟨hLeast, _⟩, hChars⟩ := hRead
      obtain ⟨cur', hMem, hEnd⟩ :=
        exists_mem_spanEnds (Option.isNone_iff_eq_none.1 hPlain) hLeast hChars hRest
      rw [run_span]
      exact isSome_firstSuccess hMem (hNext cur' caps hEnd.2)
  | group _ r ih => exact ih hPlain hRead hRest fun cur' caps' hEnd => hNext cur' _ hEnd

/-! ### Spans that are as long as possible -/

theorem exists_split_of_firstSuccess {k : Cursor → Option α} {places : List Cursor} {a : α}
    (h : firstSuccess k places = some a) : ∃ front cur back, places = front ++ cur :: back ∧
      (∀ earlier ∈ front, k earlier = none) ∧ k cur = some a := by
  induction places with
  | nil => cases h
  | cons first rest ih =>
      rw [firstSuccess] at h
      split at h
      · rename_i hFirst
        exact ⟨[], first, rest, rfl, by simp, hFirst.trans h⟩
      · rename_i hNone
        obtain ⟨front, cur, back, rfl, hFront, hCur⟩ := ih h
        exact ⟨first :: front, cur, back, rfl, List.forall_mem_cons.2 ⟨hNone, hFront⟩, hCur⟩

/-- The places where a run may end come one after the other. -/
theorem pairwise_spanPlaces (s : CharSet) (before : Option Char) (index n : Nat)
    (rest : List Char) :
    (spanPlaces s none before index n rest).Pairwise fun p q => p.2.index < q.2.index := by
  induction rest generalizing before index n with
  | nil => exact List.pairwise_singleton _ _
  | cons c rest ih =>
      rw [spanPlaces]
      refine List.pairwise_cons.2 ⟨fun place hPlace => ?_, ?_⟩
      · split at hPlace
        · obtain ⟨_, _, _, hIndex, _⟩ := exists_of_mem_spanPlaces (by simp) hPlace
          rw [hIndex]
          dsimp only
          omega
        · cases hPlace
      · split
        · exact ih _ _ _
        · exact List.Pairwise.nil

/-- A span that is as long as possible ends where what follows succeeds, and would not succeed
behind any more characters of the set. -/
theorem exists_of_run_greedy {s : CharSet} {least : Nat} {spot : Spot} {cur : Cursor}
    {caps : Captures} {k : Cursor → Thread → Option α} {a : α}
    (h : run (span s ⟨least, none, true⟩) spot cur ⟨caps, none⟩ k = some a) :
    ∃ cur', cur.Reads (span s ⟨least, none, true⟩).language cur' ∧
      k cur' ⟨caps, none⟩ = some a ∧
      ∀ more rest, more ≠ [] → (∀ c ∈ more, s.contains c = true) → cur'.rest = more ++ rest →
        ∃ longer, longer.rest = rest ∧ k longer ⟨caps, none⟩ = none := by
  rw [run_span] at h
  obtain ⟨front, cur', back, hEnds, hFront, hCur⟩ := exists_split_of_firstSuccess h
  have hReads : cur.Reads (span s ⟨least, none, true⟩).language cur' :=
    reads_of_mem_spanEnds (hEnds ▸ List.mem_append_right front List.mem_cons_self)
  refine ⟨cur', hReads, hCur, fun more rest hMore hChars hRest => ?_⟩
  obtain ⟨read, ⟨⟨hLeast, _⟩, hRead⟩, hAll, hIndex⟩ := hReads
  rw [hRest, ← List.append_assoc] at hAll
  have hEnough : least ≤ (read ++ more).length := by
    rw [List.length_append]
    exact Nat.le_add_right_of_le hLeast
  obtain ⟨longer, hMem, hLonger, hEnd⟩ : ∃ longer ∈ spanEnds s ⟨least, none, true⟩ cur,
      longer.index = cur.index + (read ++ more).length ∧ longer.rest = rest :=
    exists_mem_spanEnds rfl hEnough (List.forall_mem_append.2 ⟨hRead, hChars⟩) hAll
  refine ⟨longer, hEnd, ?_⟩
  have hOrder : (spanEnds s ⟨least, none, true⟩ cur).Pairwise fun p q => q.index < p.index := by
    rw [spanEnds, if_pos rfl, List.pairwise_reverse]
    refine (pairwise_spanPlaces s cur.before cur.index 0 cur.rest).filterMap _ ?_
    intro p q hLess place hPlace place' hPlace'
    obtain ⟨_, hSame⟩ := Option.ite_none_right_eq_some.1 hPlace
    obtain ⟨_, hSame'⟩ := Option.ite_none_right_eq_some.1 hPlace'
    cases hSame
    cases hSame'
    exact hLess
  rw [hEnds] at hMem hOrder
  rcases List.mem_append.1 hMem with hEarlier | hLater
  · exact hFront longer hEarlier
  · have hBehind := (List.pairwise_append.1 hOrder).2.1
    have hLength := List.length_pos_of_ne_nil hMore
    rw [List.length_append] at hLonger
    rcases List.mem_cons.1 hLater with rfl | hBack
    · omega
    · have hLess := (List.pairwise_cons.1 hBehind).1 longer hBack
      omega

end

/-! ### Occurrences -/

/-- The expression matches at a place of the text, up to another place. -/
def Occurs (r : Regex) (text : List Char) (start stop : Nat) : Prop :=
  start ≤ text.length ∧ ∃ m, matchAt? r (place text start) = some m ∧ m.stop = stop

/-- What is matched is a text of the expression's language. -/
theorem Occurs.exists_read {start stop : Nat} (h : r.Occurs text start stop) :
    ∃ read ∈ r.language, text.drop start = read ++ text.drop stop ∧
      stop = start + read.length := by
  obtain ⟨_, m, hMatch, rfl⟩ := h
  obtain ⟨cur', _, hAdvances, hSame⟩ := run_advances r [] (isIn_place text start) hMatch
  cases hSame
  obtain ⟨read, hRead, hRest, hStop⟩ := hAdvances.reads
  have hEnd : cur'.rest = text.drop cur'.index := hAdvances.reads.isIn (isIn_place text start)
  exact ⟨read, hRead, hEnd ▸ hRest, hStop⟩

/-- A plain expression has no loops but spans. -/
theorem hasEmptyLoop_of_plain (h : r.plain = true) : r.hasEmptyLoop = false := by
  induction r with
  | empty | set _ | anchor _ | span _ _ => rfl
  | seq r s ihr ihs | alt r s ihr ihs =>
      obtain ⟨hr, hs⟩ := Bool.and_eq_true_iff.1 h
      rw [hasEmptyLoop, ihr hr, ihs hs, Bool.or_self]
  | «repeat» _ _ _ => cases h
  | group _ r ih => exact ih h

theorem thread_of_hasEmptyLoop (h : r.hasEmptyLoop = false) : r.thread = ⟨[], none⟩ := by
  rw [thread, h]
  rfl

/-- A text of the language that stands somewhere has an occurrence there, if not the same one. -/
theorem exists_occurs (hPlain : r.plain = true) {start : Nat} {read rest : List Char}
    (hStart : start ≤ text.length) (hRead : read ∈ r.language)
    (hRest : text.drop start = read ++ rest) : ∃ stop, r.Occurs text start stop := by
  have hSome : (matchAt? r (place text start)).isSome := by
    change (run r [] _ r.thread _).isSome
    rw [thread_of_hasEmptyLoop (hasEmptyLoop_of_plain hPlain)]
    exact isSome_run hPlain hRead hRest fun _ _ _ => rfl
  obtain ⟨m, hMatch⟩ := Option.isSome_iff_exists.1 hSome
  exact ⟨m.stop, hStart, m, hMatch, rfl⟩

/-- So many occurrences without overlaps, from a place on. -/
inductive Apart (r : Regex) (text : List Char) : Nat → Nat → Prop where
  | none {index : Nat} : Apart r text index 0
  | some {index start stop count : Nat} (hLeast : index ≤ start)
      (hOccurs : r.Occurs text start stop) (hRest : Apart r text stop count) :
      Apart r text index (count + 1)

theorem matchAt?_of_freshAt? {lastStop : Option Nat} {index : Nat} {m : Match}
    (h : freshAt? r text lastStop index = some m) : matchAt? r (place text index) = some m :=
  (Option.filter_eq_some_iff.1 h).1

/-- Successive matches do not overlap. -/
theorem Successive.apart {lastStop : Option Nat} {index : Nat} {found : List Match}
    (h : Successive r text lastStop index found) : Apart r text index found.length := by
  induction h with
  | nil _ => exact .none
  | cons hLeast hMost hFound _ _ ih =>
      exact .some hLeast ⟨hMost, _, matchAt?_of_freshAt? hFound, rfl⟩ ih

/-- To take the first match, time after time, leaves room for as many as there can be. -/
theorem Successive.length_ge (hSome : ∀ start stop, r.Occurs text start stop → start < stop)
    (hMono : ∀ i j e f, i ≤ j → r.Occurs text i e → r.Occurs text j f → e ≤ f)
    {lastStop : Option Nat} {index count : Nat} {found : List Match}
    (h : Successive r text lastStop index found) (hApart : Apart r text index count) :
    count ≤ found.length := by
  -- A match that is not empty counts, whatever has ended where it begins.
  have hFresh : ∀ lastStop {start stop}, r.Occurs text start stop →
      ∃ m, freshAt? r text lastStop start = some m := by
    rintro lastStop start stop ⟨hStart, m, hMatch, rfl⟩
    have hLess := hSome start _ ⟨hStart, m, hMatch, rfl⟩
    obtain ⟨hBegin, _, _⟩ := bounds_of_matchAt? hStart hMatch
    refine ⟨m, Option.filter_eq_some_iff.2 ⟨hMatch, ?_⟩⟩
    have hApart : ¬m.start = m.stop := by omega
    simp [hApart]
  induction h generalizing count with
  | nil hNone =>
      cases hApart with
      | none => exact Nat.zero_le _
      | some hLeast hOccurs _ =>
          obtain ⟨m, hFound⟩ := hFresh _ hOccurs
          rw [hNone _ hLeast hOccurs.1] at hFound
          cases hFound
  | @cons lastStop index first m rest hLeast hMost hFound hBefore hRest ih =>
      cases hApart with
      | none => exact Nat.zero_le _
      | @some _ start stop count hIndex hOccurs hOthers =>
          have hFirst : first ≤ start := by
            by_contra hEarlier
            obtain ⟨m', hFound'⟩ := hFresh lastStop hOccurs
            rw [hBefore start hIndex (by omega)] at hFound'
            cases hFound'
          have hStop : m.stop ≤ stop :=
            hMono first start _ stop hFirst ⟨hMost, m, matchAt?_of_freshAt? hFound, rfl⟩ hOccurs
          refine Nat.succ_le_succ (ih ?_)
          cases hOthers with
          | none => exact .none
          | some hLater hNext hMore => exact .some (hStop.trans hLater) hNext hMore

/-! ### Texts that grow -/

/-- Wherever the expression matches, it goes on to match, and without running into the next match,
when something is added before or behind the text. -/
structure Steady (r : Regex) : Prop where
  nonempty : ∀ {text start stop}, r.Occurs text start stop → start < stop
  ordered : ∀ {text i j e f}, i < j → r.Occurs text i e → r.Occurs text j f → e ≤ f
  stays : ∀ {text start stop} before behind, r.Occurs text start stop →
    ∃ stop', r.Occurs (before ++ text ++ behind) (before.length + start) stop' ∧
      ∀ j f, stop ≤ j → r.Occurs text j f → stop' ≤ before.length + j

/-- Matches that do not overlap are still there when the text grows. -/
theorem Steady.apart (h : r.Steady) {before behind : List Char} {index index' count : Nat}
    (hIndex : ∀ j f, index ≤ j → r.Occurs text j f → index' ≤ before.length + j)
    (hApart : Apart r text index count) :
    Apart r (before ++ text ++ behind) index' count := by
  induction hApart generalizing index' with
  | none => exact .none
  | some hLeast hOccurs _ ih =>
      obtain ⟨stop', hStays, hNext⟩ := h.stays before behind hOccurs
      exact .some (hIndex _ _ hLeast hOccurs) hStays (ih hNext)

/-- Where a text is part of a longer one, it has no more matches. -/
theorem Steady.length_allMatches_le (h : r.Steady) (before text behind : List Char) :
    (r.allMatches text).length ≤ (r.allMatches (before ++ text ++ behind)).length := by
  have hApart : Apart r (before ++ text ++ behind) 0 (r.allMatches text).length :=
    h.apart (fun _ _ _ _ => Nat.zero_le _) (successive_iff.2 rfl).apart
  refine Successive.length_ge (fun _ _ => h.nonempty) ?_ (successive_iff.2 rfl) hApart
  intro i j e f hLess hFirst hSecond
  rcases Nat.eq_or_lt_of_le hLess with rfl | hLess
  · obtain ⟨_, m, hMatch, rfl⟩ := hFirst
    obtain ⟨_, m', hMatch', rfl⟩ := hSecond
    cases hMatch.symm.trans hMatch'
    exact Nat.le_refl _
  · exact h.ordered hLess hFirst hSecond

/-! ### Expressions that begin with a word -/

/-- No proper end of the text is a beginning of it, so that it cannot overlap itself. -/
def Unbordered (word : List Char) : Prop :=
  ∀ d < word.length, 0 < d → ¬word.drop d <+: word

instance (word : List Char) : Decidable (Unbordered word) :=
  inferInstanceAs (Decidable (∀ d < word.length, 0 < d → ¬word.drop d <+: word))

/-- A word that cannot overlap itself does not begin again before the next place of its first
character. -/
theorem Unbordered.not_prefix_drop {c : Char} {word part rest : List Char} {d : Nat}
    (h : Unbordered (c :: word)) (hPart : c ∉ part) (hBehind : 0 < d)
    (hBefore : d < (c :: word).length + part.length) :
    ¬c :: word <+: (c :: word ++ part ++ rest).drop d := by
  intro hPrefix
  rw [List.append_assoc] at hPrefix
  rcases Nat.lt_or_ge d (c :: word).length with hInside | hOutside
  · rw [List.drop_append_of_le_length hInside.le] at hPrefix
    refine h d hInside hBehind (List.prefix_of_prefix_length_le (List.prefix_append _ _) hPrefix ?_)
    rw [List.length_drop]
    omega
  · obtain ⟨n, rfl⟩ := Nat.exists_eq_add_of_le hOutside
    rw [← List.drop_drop, List.drop_left, List.drop_append_of_le_length (by omega)] at hPrefix
    obtain ⟨first, others, hPieces⟩ : ∃ first others, part.drop n = first :: others :=
      List.exists_cons_of_length_pos (by rw [List.length_drop]; omega)
    rw [hPieces, List.cons_append, List.cons_prefix_cons] at hPrefix
    obtain ⟨rfl, _⟩ := hPrefix
    exact hPart (List.mem_of_mem_drop (hPieces ▸ List.mem_cons_self))

/-- A place at a distance before which the text is known. -/
theorem drop_of_drop_eq {i j : Nat} {all : List Char} (hLess : i ≤ j) (h : text.drop i = all) :
    text.drop j = all.drop (j - i) := by
  rw [← h, List.drop_drop, Nat.add_sub_cancel' hLess]

theorem drop_around {before behind : List Char} {start : Nat} (h : start ≤ text.length) :
    (before ++ text ++ behind).drop (before.length + start) = text.drop start ++ behind := by
  rw [List.append_assoc, ← List.drop_drop, List.drop_left, List.drop_append_of_le_length h]

/-- Where a plain expression matches in a text, it matches in each longer one. -/
theorem Occurs.around (hPlain : r.plain = true) {start stop : Nat} (h : r.Occurs text start stop)
    (before behind : List Char) :
    ∃ stop', r.Occurs (before ++ text ++ behind) (before.length + start) stop' := by
  obtain ⟨read, hRead, hRest, _⟩ := h.exists_read
  have hDrop : (before ++ text ++ behind).drop (before.length + start) =
      read ++ (text.drop stop ++ behind) := by
    rw [drop_around h.1, hRest, List.append_assoc]
  have hStart : before.length + start ≤ (before ++ text ++ behind).length := by
    have hInside := h.1
    simp only [List.length_append]
    omega
  exact exists_occurs hPlain hStart hRead hDrop

/-- An expression whose texts begin with a word, the first character of which does not come again,
has no overlapping matches at all. -/
theorem steady_of_word {c : Char} {word : List Char} (hPlain : r.plain = true)
    (hWord : Unbordered (c :: word))
    (hRead : ∀ read ∈ r.language, ∃ part, read = c :: word ++ part ∧ c ∉ part) : r.Steady := by
  have hBegins : ∀ {text i e}, r.Occurs text i e → ∃ part, c ∉ part ∧
      text.drop i = c :: word ++ part ++ text.drop e ∧ e = i + (c :: word).length + part.length := by
    intro text i e h
    obtain ⟨_, hLanguage, hDrop, hStop⟩ := h.exists_read
    obtain ⟨part, rfl, hPart⟩ := hRead _ hLanguage
    exact ⟨part, hPart, hDrop, by rw [hStop, List.length_append, Nat.add_assoc]⟩
  have hApart : ∀ {text i j e f}, i < j → r.Occurs text i e → r.Occurs text j f → e ≤ j := by
    intro text i j e f hLess hFirst hSecond
    obtain ⟨part, hPart, hDrop, hStop⟩ := hBegins hFirst
    obtain ⟨part', _, hDrop', _⟩ := hBegins hSecond
    by_contra hInside
    have hAgain : c :: word <+: (c :: word ++ part ++ text.drop e).drop (j - i) := by
      rw [← drop_of_drop_eq hLess.le hDrop, hDrop', List.append_assoc]
      exact List.prefix_append _ _
    exact hWord.not_prefix_drop hPart (by omega) (by omega) hAgain
  refine ⟨fun h => ?_, fun hLess hFirst hSecond => ?_, fun {text start stop} before behind h => ?_⟩
  · obtain ⟨_, _, _, rfl⟩ := hBegins h
    rw [List.length_cons]
    omega
  · obtain ⟨_, _, _, hStop⟩ := hBegins hSecond
    have hEnd := hApart hLess hFirst hSecond
    omega
  · obtain ⟨stop', hStays⟩ := h.around hPlain before behind
    refine ⟨stop', hStays, fun j f hBehind hNext => ?_⟩
    obtain ⟨f', hNext⟩ := hNext.around hPlain before behind
    obtain ⟨_, _, _, hStop⟩ := hBegins h
    exact hApart (by rw [List.length_cons] at hStop; omega) hStays hNext

/-- An expression that goes on after a word with characters of other kinds only. -/
theorem steady_of_text {s : String} {c : Char} {word : List Char} {parts : List Regex}
    (hText : s.toList = c :: word) (hPlain : (sequence parts).plain = true)
    (hWord : Unbordered (c :: word)) (hParts : (sequence parts).mayRead c = false) :
    (sequence (Regex.text s :: parts)).Steady := by
  refine steady_of_word (Bool.and_eq_true_iff.2 ⟨plain_text s, hPlain⟩) hWord fun read hRead => ?_
  obtain ⟨first, hFirst, part, hPart, rfl⟩ := Language.mem_mul.1 hRead
  rw [language_text, hText] at hFirst
  have hPart : part ∈ (sequence parts).language := hPart
  refine ⟨part, congrArg (· ++ part) hFirst, fun hMem => ?_⟩
  rw [mayRead_of_mem_language hPart hMem] at hParts
  cases hParts

end SourceSurvey.Regex
