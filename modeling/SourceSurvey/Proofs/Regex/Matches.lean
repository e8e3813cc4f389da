import SourceSurvey.Proofs.Regex.Language
import SourceSurvey.Regex.Standard

/-!
The matches of an expression in a text, one after the other, whatever engine tells what matches at a
place. Each begins at the first place behind the one before it where the expression matches at all,
save that nothing is matched twice at a place where the last match has ended.
-/

namespace SourceSurvey

namespace Cursor

/-- The place at a distance from the start of a text. -/
def place (text : List Char) (index : Nat) : Cursor :=
  ⟨(text.take index).getLast?, index, text.drop index⟩

variable {text : List Char} {index stop : Nat}

@[simp]
theorem place_before : (place text index).before = (text.take index).getLast? := rfl

@[simp]
theorem place_index : (place text index).index = index := rfl

@[simp]
theorem place_rest : (place text index).rest = text.drop index := rfl

theorem isIn_place (text : List Char) (index : Nat) : (place text index).IsIn text := rfl

theorem place_succ {c : Char} {rest : List Char} (h : text.drop index = c :: rest) :
    place text (index + 1) = ⟨some c, index + 1, rest⟩ := by
  have hTake : text.take (index + 1) = text.take index ++ [c] := by
    rw [List.take_add, h]
    rfl
  have hDrop : text.drop (index + 1) = rest := by
    rw [← List.drop_drop, h, List.drop_one, List.tail_cons]
  rw [place, hTake, hDrop, List.getLast?_concat]

theorem advance?_place_end (h : text.drop index = []) : (place text index).advance? = none := by
  rw [advance?, next?, place_rest, h]
  rfl

theorem advance?_place {c : Char} {rest : List Char} (h : text.drop index = c :: rest) :
    (place text index).advance? = some (place text (index + 1)) := by
  rw [place_succ h, advance?, next?, place_rest, h]
  rfl

/-- To skip to a later place is to be there. -/
theorem skipTo_place (hBehind : index ≤ stop) (hStop : stop ≤ text.length) :
    (place text index).skipTo stop = place text stop := by
  obtain ⟨read, rfl⟩ := Nat.exists_eq_add_of_le hBehind
  have hRead : (text.drop index).length ≥ read := by
    rw [List.length_drop]
    omega
  have hLast : ((text.drop index).take read).getLast?.or (text.take index).getLast? =
      (text.take (index + read)).getLast? := by
    rw [List.take_add, List.getLast?_append]
  simp only [skipTo, place_index, place_rest, place_before, Nat.add_sub_cancel_left]
  rw [hLast, List.length_take, Nat.min_eq_left hRead, List.drop_drop]
  rfl

end Cursor

namespace Regex

open Cursor

variable {r : Regex} {text : List Char} {m : Match} {index : Nat} {lastStop : Option Nat}

/-- The fuel that is needed: two steps for every character left, since a match that is empty and one
that is not can begin there, and one more where nothing has ended. -/
def steps (text : List Char) (lastStop : Option Nat) (index : Nat) : Nat :=
  2 * (text.length - index) + if lastStop.isNone then 1 else 0

theorem steps_none (text : List Char) (index : Nat) :
    steps text none index = 2 * (text.length - index) + 1 := rfl

theorem steps_some (text : List Char) (last index : Nat) :
    steps text (some last) index = 2 * (text.length - index) := rfl

/-- Less fuel is needed behind a match, unless it is an empty one where the last match has ended. -/
theorem steps_lt (hLast : lastStop = none ∨ lastStop = some index) (hBehind : index ≤ m.stop)
    (hStop : m.stop ≤ text.length) (hFresh : lastStop = some index → m.stop ≠ index) :
    steps text (some m.stop) m.stop < steps text lastStop index := by
  rw [steps_some]
  rcases hLast with rfl | rfl
  · rw [steps_none]
    omega
  · have hFurther := hFresh rfl
    rw [steps_some]
    omega

/-- An engine by which a match begins where it is looked for and ends behind that place, in the
text. -/
class LawfulEngine [Engine] : Prop where
  bounds : ∀ {r : Regex} {cur : Cursor} {m : Match}, matchAt? r cur = some m →
    m.start = cur.index ∧ cur.index ≤ m.stop ∧ m.stop ≤ cur.index + cur.rest.length

/-- To try alternatives is lawful. -/
instance : LawfulEngine where
  bounds := by
    intro r cur m h
    -- any text will do that has the rest behind the place
    have hIn : cur.IsIn (List.replicate cur.index ' ' ++ cur.rest) := by
      have hLength : (List.replicate cur.index ' ').length = cur.index := List.length_replicate
      rw [IsIn, List.drop_append_of_le_length (by omega), List.drop_eq_nil_of_le (by omega),
        List.nil_append]
    obtain ⟨cur', t, hAdvances, hMatch⟩ := run_advances r [] hIn h
    cases hMatch
    obtain ⟨read, _, hRest, hStop⟩ := hAdvances.reads
    have hLength := congrArg List.length hRest
    rw [List.length_append] at hLength
    refine ⟨rfl, ?_, ?_⟩
    · change cur.index ≤ cur'.index
      omega
    · change cur'.index ≤ cur.index + cur.rest.length
      omega

variable [Engine]

/-! ### The first match -/

/-- The expression matches at this place and at none before it, from `index` on. -/
structure First (r : Regex) (text : List Char) (index place : Nat) (m : Match) : Prop where
  least : index ≤ place
  most : place ≤ text.length
  found : matchAt? r (.place text place) = some m
  before : ∀ i, index ≤ i → i < place → matchAt? r (.place text i) = none

/-- From a place on, the first match is found, or there is none up to the end of the text. -/
theorem findFrom?_cases (r : Regex) (hIndex : index ≤ text.length) :
    (findFrom? r (text.take index).getLast? index (text.drop index) = none ∧
      ∀ i, index ≤ i → i ≤ text.length → matchAt? r (place text i) = none) ∨
    ∃ i m, findFrom? r (text.take index).getLast? index (text.drop index) = some (m, place text i) ∧
      First r text index i m := by
  generalize hRest : text.drop index = rest
  induction rest generalizing index with
  | nil =>
      have hEnd : index = text.length := by
        have hLength := congrArg List.length hRest
        rw [List.length_drop, List.length_nil] at hLength
        omega
      have hHere : (⟨(text.take index).getLast?, index, []⟩ : Cursor) = place text index := by
        rw [place, hRest]
      rw [findFrom?, hHere]
      cases hMatch : matchAt? r (place text index) with
      | none =>
          refine .inl ⟨rfl, fun i hLeast hMost => ?_⟩
          obtain rfl : i = index := by omega
          exact hMatch
      | some m => exact .inr ⟨index, m, rfl, Nat.le_refl _, hIndex, hMatch, by omega⟩
  | cons c rest ih =>
      have hMore : index + 1 ≤ text.length :=
        List.length_lt_of_drop_ne_nil (hRest ▸ List.cons_ne_nil c rest)
      have hHere : (⟨(text.take index).getLast?, index, c :: rest⟩ : Cursor) = place text index := by
        rw [place, hRest]
      have hNext := place_succ hRest
      obtain ⟨hLast, _, hDrop⟩ := Cursor.mk.inj hNext
      rw [findFrom?, hHere]
      cases hMatch : matchAt? r (place text index) with
      | some m => exact .inr ⟨index, m, rfl, Nat.le_refl _, hIndex, hMatch, by omega⟩
      | none =>
          have hLater := ih hMore hDrop
          rw [hLast] at hLater
          rcases hLater with ⟨hNone, hNowhere⟩ | ⟨i, m, hSome, hFirst⟩
          · refine .inl ⟨hNone, fun i hLeast hMost => ?_⟩
            rcases Nat.eq_or_lt_of_le hLeast with rfl | hLess
            · exact hMatch
            · exact hNowhere i hLess hMost
          · refine .inr ⟨i, m, hSome, Nat.le_of_succ_le hFirst.least, hFirst.most, hFirst.found, ?_⟩
            intro j hLeast hMost
            rcases Nat.eq_or_lt_of_le hLeast with rfl | hLess
            · exact hMatch
            · exact hFirst.before j hLess hMost

/-! ### All matches -/

/-- The match at this place, unless it is an empty one where the last match has ended. -/
def freshAt? (r : Regex) (text : List Char) (lastStop : Option Nat) (index : Nat) : Option Match :=
  (matchAt? r (place text index)).filter fun m => !(m.start == m.stop && lastStop == some m.stop)

/-- The successive matches that do not overlap, from a place on: the next is the one that begins
first, and the search goes on where it ends. -/
inductive Successive (r : Regex) (text : List Char) : Option Nat → Nat → List Match → Prop where
  | nil {lastStop : Option Nat} {index : Nat}
      (hNone : ∀ i, index ≤ i → i ≤ text.length → freshAt? r text lastStop i = none) :
      Successive r text lastStop index []
  | cons {lastStop : Option Nat} {index place : Nat} {m : Match} {rest : List Match}
      (hLeast : index ≤ place) (hMost : place ≤ text.length)
      (hFound : freshAt? r text lastStop place = some m)
      (hBefore : ∀ i, index ≤ i → i < place → freshAt? r text lastStop i = none)
      (hRest : Successive r text (some m.stop) m.stop rest) :
      Successive r text lastStop index (m :: rest)

/-- There is only one list of successive matches. -/
theorem Successive.unique {found found' : List Match} (h : Successive r text lastStop index found)
    (h' : Successive r text lastStop index found') : found = found' := by
  induction h generalizing found' with
  | nil hNone =>
      cases h' with
      | nil => rfl
      | cons hLeast hMost hFound => exact absurd ((hNone _ hLeast hMost).symm.trans hFound) (by simp)
  | cons hLeast hMost hFound hBefore _ ih =>
      rename_i lastStop index i m rest _
      cases h' with
      | nil hNone => exact absurd ((hNone _ hLeast hMost).symm.trans hFound) (by simp)
      | @cons _ _ i' m' rest' hLeast' hMost' hFound' hBefore' hRest' =>
          have hPlace : i = i' := by
            rcases Nat.lt_trichotomy i i' with hLess | hSame | hMore
            · exact absurd ((hBefore' i hLeast hLess).symm.trans hFound) (by simp)
            · exact hSame
            · exact absurd ((hBefore i' hLeast' hMore).symm.trans hFound') (by simp)
          subst hPlace
          obtain rfl : m = m' := Option.some.inj (hFound.symm.trans hFound')
          rw [ih hRest']

theorem freshAt?_eq_none_of_matchAt? (h : matchAt? r (place text index) = none) :
    freshAt? r text lastStop index = none := by
  rw [freshAt?, h]
  rfl

variable [LawfulEngine]

/-- A match begins where it is looked for and ends in the text. -/
theorem bounds_of_matchAt? (hIndex : index ≤ text.length)
    (h : matchAt? r (place text index) = some m) :
    m.start = index ∧ index ≤ m.stop ∧ m.stop ≤ text.length := by
  obtain ⟨hStart, hBehind, hStop⟩ := LawfulEngine.bounds h
  rw [place_index, place_rest, List.length_drop, Nat.add_sub_cancel' hIndex] at hStop
  exact ⟨hStart, hBehind, hStop⟩

/-- Where nothing has ended at the place itself, all matches count. -/
theorem freshAt?_eq_matchAt? (hIndex : index ≤ text.length) (h : lastStop ≠ some index) :
    freshAt? r text lastStop index = matchAt? r (place text index) := by
  rw [freshAt?]
  cases hMatch : matchAt? r (place text index) with
  | none => rfl
  | some m =>
      obtain ⟨hStart, _, _⟩ := bounds_of_matchAt? hIndex hMatch
      rw [Option.filter_some, if_pos]
      by_cases hEmpty : m.start = m.stop
      · rw [hStart] at hEmpty
        simp [← hEmpty, h]
      · simp [hEmpty]

/-- With nothing new at the place where the last match has ended, the search goes on one character
later, where all matches count. -/
theorem Successive.of_succ {found : List Match} (hHere : freshAt? r text (some index) index = none)
    (h : Successive r text none (index + 1) found) : Successive r text (some index) index found := by
  have hLater : ∀ i, index < i → i ≤ text.length →
      freshAt? r text (some index) i = freshAt? r text none i := by
    intro i hBehind hMost
    have hApart : some index ≠ some i := fun hSame => Nat.ne_of_lt hBehind (Option.some.inj hSame)
    rw [freshAt?_eq_matchAt? hMost hApart, freshAt?_eq_matchAt? hMost (by simp)]
  cases h with
  | nil hNone =>
      refine .nil fun i hLeast hMost => ?_
      rcases Nat.eq_or_lt_of_le hLeast with rfl | hBehind
      · exact hHere
      · rw [hLater i hBehind hMost]
        exact hNone i hBehind hMost
  | cons hLeast hMost hFound hBefore hRest =>
      refine .cons (Nat.le_of_succ_le hLeast) hMost ?_ ?_ hRest
      · rw [hLater _ hLeast hMost]
        exact hFound
      · intro i hFrom hLess
        rcases Nat.eq_or_lt_of_le hFrom with rfl | hBehind
        · exact hHere
        · rw [hLater i hBehind (by omega)]
          exact hBefore i hBehind hLess

/-- By induction over the fuel, of which there is enough for all places that are left. -/
theorem successive_matchesFrom {fuel : Nat} (hIndex : index ≤ text.length)
    (hLast : lastStop = none ∨ lastStop = some index) (hFuel : steps text lastStop index < fuel) :
    Successive r text lastStop index (matchesFrom r lastStop fuel (place text index)) := by
  induction fuel generalizing lastStop index with
  | zero => exact absurd hFuel (Nat.not_lt_zero _)
  | succ fuel ih =>
      rw [matchesFrom, place_before, place_index, place_rest]
      rcases findFrom?_cases r hIndex with ⟨hNone, hNowhere⟩ | ⟨i, m, hSome, hFirst⟩
      · rw [hNone]
        exact .nil fun i hLeast hMost => freshAt?_eq_none_of_matchAt? (hNowhere i hLeast hMost)
      · obtain ⟨hStart, hBehind, hStop⟩ := bounds_of_matchAt? hFirst.most hFirst.found
        have hLeast := hFirst.least
        rw [hSome]
        dsimp only
        split
        · rename_i hEmpty
          -- the match is an empty one at the end of the last, so it is right here
          obtain rfl : lastStop = some index := by
            rcases hLast with hNo | hEnd
            · exact absurd (hNo.symm.trans hEmpty.2) (by simp)
            · exact hEnd
          obtain rfl : i = index := by
            have hSame := Option.some.inj hEmpty.2
            omega
          have hHere : freshAt? r text (some i) i = none := by
            rw [freshAt?, hFirst.found, Option.filter_some, if_neg]
            simp [hEmpty.1, hEmpty.2]
          cases hRest : text.drop i with
          | nil =>
              have hEnd : text.length ≤ i := List.drop_eq_nil_iff.1 hRest
              rw [advance?_place_end hRest]
              refine .nil fun j hFrom hMost => ?_
              obtain rfl : j = i := by omega
              exact hHere
          | cons c rest =>
              have hMore : i + 1 ≤ text.length :=
                List.length_lt_of_drop_ne_nil (hRest ▸ List.cons_ne_nil c rest)
              rw [advance?_place hRest]
              refine .of_succ hHere (ih hMore (.inl rfl) ?_)
              rw [steps_some] at hFuel
              rw [steps_none]
              omega
        · rename_i hFresh
          rw [skipTo_place hBehind hStop]
          refine .cons hLeast hFirst.most ?_ ?_ (ih hStop (.inr rfl) ?_)
          · rw [freshAt?, hFirst.found, Option.filter_some, if_pos]
            simpa [Decidable.imp_iff_not_or] using hFresh
          · exact fun j hFrom hLess => freshAt?_eq_none_of_matchAt? (hFirst.before j hFrom hLess)
          · have hFurther : lastStop = some index → m.stop ≠ index := by
              rintro rfl hSame
              exact hFresh ⟨by omega, congrArg some hSame.symm⟩
            have hLess := steps_lt hLast (Nat.le_trans hLeast hBehind) hStop hFurther
            omega

/-- The matches of an expression are the successive ones, and no others are. -/
theorem successive_iff {found : List Match} :
    Successive r text none 0 found ↔ found = allMatches r text := by
  have hAll : Successive r text none 0 (allMatches r text) :=
    successive_matchesFrom (Nat.zero_le _) (.inl rfl) (by simp [steps])
  constructor
  · intro h
    exact h.unique hAll
  · rintro rfl
    exact hAll

end Regex

end SourceSurvey
