import SourceSurvey.Text.Blank
import SourceSurvey.Text.Case
import SourceSurvey.Text.Letter

/-!
Characters of words, of all scripts. None of them is white space, and of characters that differ in
case only either all are of a word or none is.
-/

namespace SourceSurvey.Text

/-! ### Looking through a table -/

/-- The lines of a table, as characters, have a property. A text is slow to be taken apart in a
proof, so its characters are put in its place before the property is looked into. -/
def HasLines (lines : List String) (P : List (List Char) → Prop) : Prop :=
  P (lines.map String.toList)

theorem HasLines.nil {P : List (List Char) → Prop} (h : P []) : HasLines [] P := h

theorem HasLines.cons {P : List (List Char) → Prop} {line : List Char} {lines : List String}
    (h : HasLines lines fun chars => P (line :: chars)) :
    HasLines (String.ofList line :: lines) P := by
  rw [HasLines, List.map_cons, String.toList_ofList]
  exact h

theorem Run.of_hasLines {P : List Run → Prop} {lines : List String}
    (h : HasLines lines fun chars => P ((chars.flatMap (·.splitOn ' ')).filterMap parse?)) :
    P (table lines) := by
  rwa [HasLines, List.flatMap_map] at h

theorem Shift.of_hasLines {P : List Shift → Prop} {lines : List String}
    (h : HasLines lines fun chars => P ((chars.flatMap (·.splitOn ' ')).filterMap parse?)) :
    P (table lines) := by
  rwa [HasLines, List.flatMap_map] at h

namespace Run

variable {r : Run} {runs : List Run} {n : Nat}

/-- The two runs have no code point in common, since one ends before the other begins. -/
def apart (r s : Run) : Bool := Nat.blt r.last s.first || Nat.blt s.last r.first

/-- Runs that are apart share no character. -/
theorem contains_eq_false_of_apart {s : Run} (h : r.apart s = true) (hR : r.contains n = true) :
    s.contains n = false := by
  simp only [apart, contains, Bool.or_eq_true, Nat.blt_eq, Bool.and_eq_true,
    decide_eq_true_eq] at h hR
  simp only [contains, Bool.and_eq_false_iff, decide_eq_false_iff_not]
  omega

/-- All code points of the run are in one of the others. -/
def within (r : Run) (runs : List Run) : Bool :=
  runs.any fun s => Nat.ble r.last s.last && s.contains r.first &&
    (r.first == r.last || r.step % s.step == 0)

theorem contains_of_within (h : r.within runs = true) (hR : r.contains n = true) :
    ∃ s ∈ runs, s.contains n = true := by
  obtain ⟨s, hS, hWithin⟩ := List.any_eq_true.1 h
  refine ⟨s, hS, ?_⟩
  simp only [contains, Bool.and_eq_true, Bool.or_eq_true, decide_eq_true_eq, beq_iff_eq,
    Nat.ble_eq] at hWithin hR ⊢
  obtain ⟨⟨hLast, ⟨hFirst, _⟩, hStart⟩, hStep⟩ := hWithin
  obtain ⟨⟨hLeast, hMost⟩, hAt⟩ := hR
  refine ⟨⟨Nat.le_trans hFirst hLeast, Nat.le_trans hMost hLast⟩, ?_⟩
  rcases hStep with hOne | hStep
  · obtain rfl : n = r.first := by omega
    exact hStart
  · have hSum : n - s.first = (n - r.first) + (r.first - s.first) := by omega
    rw [hSum]
    refine Nat.mod_eq_zero_of_dvd (Nat.dvd_add ?_ (Nat.dvd_of_mod_eq_zero hStart))
    exact Nat.dvd_trans (Nat.dvd_of_mod_eq_zero hStep) (Nat.dvd_of_mod_eq_zero hAt)

/-- A run within others has no character that they have not. -/
theorem mem_of_within {c : Char} (h : r.within runs = true) (hC : r.contains c.toNat = true) :
    mem runs c = true := by
  obtain ⟨s, hS, hIn⟩ := contains_of_within h hC
  exact List.any_eq_true.2 ⟨s, hS, hIn⟩

/-- The code points of the run, moved. -/
def moved (r : Run) (distance : Int) : Run :=
  ⟨(r.first + distance).toNat, (r.last + distance).toNat, r.step⟩

/-- Characters that are moved by a distance are in the moved run. -/
theorem contains_moved {distance : Int} {m : Nat} (hFirst : 0 ≤ r.first + distance)
    (h : r.contains n = true) (hM : (m : Int) = n + distance) :
    (r.moved distance).contains m = true := by
  simp only [contains, Bool.and_eq_true, decide_eq_true_eq, beq_iff_eq] at h ⊢
  obtain ⟨⟨hLeast, hMost⟩, hAt⟩ := h
  have hSame : m - (r.first + distance).toNat = n - r.first := by omega
  refine ⟨⟨?_, ?_⟩, ?_⟩
  · change (r.first + distance).toNat ≤ m
    omega
  · change m ≤ (r.last + distance).toNat
    omega
  · change (m - (r.first + distance).toNat) % r.step = 0
    rw [hSame]
    exact hAt

end Run

/-! ### White space -/

theorem le_iff_toNat_le {c d : Char} : c ≤ d ↔ c.toNat ≤ d.toNat := Iff.rfl

/-- The characters of words in ASCII. -/
theorem isWord_ascii {c : Char} (h : c.toNat < 128) : isWord c = true ↔
    48 ≤ c.toNat ∧ c.toNat ≤ 57 ∨ 65 ≤ c.toNat ∧ c.toNat ≤ 90 ∨ c.toNat = 95 ∨
      97 ≤ c.toNat ∧ c.toNat ≤ 122 := by
  have hLine : c = '_' ↔ c.toNat = 95 := Char.toNat_inj.symm
  rw [isWord, if_pos h]
  simp only [isAsciiLetter, Bool.or_eq_true, Bool.and_eq_true, decide_eq_true_eq, le_iff_toNat_le,
    hLine, Char.reduceToNat]
  omega

/-- White space beyond ASCII. -/
def blankRuns : List Run :=
  [⟨0x85, 0x85, 1⟩, ⟨0xa0, 0xa0, 1⟩, ⟨0x1680, 0x1680, 1⟩, ⟨0x2000, 0x200a, 1⟩, ⟨0x2028, 0x2029, 1⟩,
    ⟨0x202f, 0x202f, 1⟩, ⟨0x205f, 0x205f, 1⟩, ⟨0x3000, 0x3000, 1⟩]

/-- Blanks are few: those of the keyboard, and the runs of others. -/
theorem isBlank_cases {c : Char} (h : isBlank c = true) :
    9 ≤ c.toNat ∧ c.toNat ≤ 13 ∨ c.toNat = 32 ∨ ∃ r ∈ blankRuns, r.contains c.toNat = true := by
  simp only [isBlank, Bool.or_eq_true, Bool.and_eq_true, decide_eq_true_eq, le_iff_toNat_le,
    ← Char.toNat_inj, Char.reduceToNat] at h
  simp only [blankRuns, List.mem_cons, exists_eq_or_imp, List.not_mem_nil, or_false,
    exists_eq_left, Run.contains, Bool.and_eq_true, decide_eq_true_eq, beq_iff_eq, Nat.mod_one,
    and_true]
  omega

/-- No white space beyond ASCII is in the table. -/
def NoBlanks (runs : List Run) : Prop := (blankRuns.all fun r => runs.all r.apart) = true

instance (runs : List Run) : Decidable (NoBlanks runs) := inferInstanceAs (Decidable (_ = true))

theorem noBlanks_letterRuns : NoBlanks letterRuns := by
  apply Run.of_hasLines
  iterate 69 refine .cons ?_
  refine .nil ?_
  decide +kernel

theorem noBlanks_markRuns : NoBlanks markRuns := by
  apply Run.of_hasLines
  iterate 31 refine .cons ?_
  refine .nil ?_
  decide +kernel

theorem noBlanks_digitRuns : NoBlanks digitRuns := by
  apply Run.of_hasLines
  iterate 8 refine .cons ?_
  refine .nil ?_
  decide +kernel

theorem noBlanks_connectorRuns : NoBlanks connectorRuns := by
  apply Run.of_hasLines
  refine .cons (.nil ?_)
  decide +kernel

theorem noBlanks_circledRuns : NoBlanks circledRuns := by
  apply Run.of_hasLines
  refine .cons (.nil ?_)
  decide +kernel

theorem not_mem_of_noBlanks {runs : List Run} {c : Char} (h : NoBlanks runs) {r : Run}
    (hR : r ∈ blankRuns) (hC : r.contains c.toNat = true) : Run.mem runs c = false := by
  refine List.any_eq_false.2 fun s hS => ?_
  rw [Run.contains_eq_false_of_apart (List.all_eq_true.1 (List.all_eq_true.1 h r hR) s hS) hC]
  exact Bool.false_ne_true

/-- No character is both a blank and part of a word. -/
theorem isWord_eq_false_of_isBlank {c : Char} (h : isBlank c = true) : isWord c = false := by
  rcases isBlank_cases h with hControl | hSpace | ⟨r, hR, hC⟩
  · rw [Bool.eq_false_iff, Ne, isWord_ascii (by omega)]
    omega
  · rw [Bool.eq_false_iff, Ne, isWord_ascii (by omega)]
    omega
  · have hFirst : ∀ r ∈ blankRuns, 128 ≤ r.first := by decide
    have hJoiners : ∀ r ∈ blankRuns, r.contains 0x200c = false ∧ r.contains 0x200d = false := by
      decide
    have hLeast : ¬c.toNat < 128 := by
      have hIn := hFirst r hR
      simp only [Run.contains, Bool.and_eq_true, decide_eq_true_eq] at hC
      omega
    have hNonJoiner : c ≠ '\u200c' := by
      rintro rfl
      exact absurd ((hJoiners r hR).1.symm.trans hC) Bool.false_ne_true
    have hJoiner : c ≠ '\u200d' := by
      rintro rfl
      exact absurd ((hJoiners r hR).2.symm.trans hC) Bool.false_ne_true
    rw [isWord, if_neg hLeast, not_mem_of_noBlanks noBlanks_letterRuns hR hC,
      not_mem_of_noBlanks noBlanks_markRuns hR hC, not_mem_of_noBlanks noBlanks_digitRuns hR hC,
      not_mem_of_noBlanks noBlanks_connectorRuns hR hC,
      not_mem_of_noBlanks noBlanks_circledRuns hR hC, decide_eq_false hNonJoiner,
      decide_eq_false hJoiner]
    rfl

/-! ### Letter case -/

/-- The small iota below a letter, the only mark that has a letter case. -/
def iotaRun : Run := ⟨0x345, 0x345, 1⟩

/-- The circled letters that have a letter case. -/
def circledRun : Run := ⟨0x24b6, 0x24e9, 1⟩

theorem iotaRun_within : iotaRun.within markRuns = true := by
  apply Run.of_hasLines (P := fun runs => iotaRun.within runs = true)
  iterate 31 refine .cons ?_
  refine .nil ?_
  decide +kernel

theorem circledRun_within : circledRun.within circledRuns = true := by
  apply Run.of_hasLines (P := fun runs => circledRun.within runs = true)
  refine .cons (.nil ?_)
  decide +kernel

/-- All code points of the run are letters of ASCII, or letters, or such others as have a case. -/
def Run.ofWords (letters : List Run) (r : Run) : Bool :=
  r.within [⟨0x41, 0x5a, 1⟩, ⟨0x61, 0x7a, 1⟩] ||
    Nat.ble 128 r.first && (r.within letters || r.within [iotaRun, circledRun])

/-- The shift moves characters of words to characters of words. -/
def Shift.keepsWords (letters : List Run) (s : Shift) : Bool :=
  Nat.ble 1 s.run.first && decide (0 ≤ s.run.first + s.distance) && s.run.ofWords letters &&
    (s.run.moved s.distance).ofWords letters

theorem keepsWords_foldShifts : foldShifts.all (·.keepsWords letterRuns) = true := by
  apply Run.of_hasLines (P := fun letters => foldShifts.all (·.keepsWords letters) = true)
  iterate 69 refine .cons ?_
  refine .nil ?_
  apply Shift.of_hasLines (P := fun shifts => shifts.all (·.keepsWords _) = true)
  iterate 23 refine .cons ?_
  refine .nil ?_
  decide +kernel

/-- A run that lies among letters has only letters. -/
theorem isWord_of_ofWords {r : Run} {c : Char} (h : r.ofWords letterRuns = true)
    (hC : r.contains c.toNat = true) : isWord c = true := by
  rw [Run.ofWords, Bool.or_eq_true, Bool.and_eq_true, Bool.or_eq_true, Nat.ble_eq] at h
  rcases h with hAscii | ⟨hFirst, hBeyond⟩
  · obtain ⟨s, hS, hIn⟩ := Run.contains_of_within hAscii hC
    simp only [List.mem_cons, List.not_mem_nil, or_false] at hS
    rcases hS with rfl | rfl
    all_goals
      simp only [Run.contains, Bool.and_eq_true, decide_eq_true_eq] at hIn
      rw [isWord_ascii (by omega)]
      omega
  · have hLeast : ¬c.toNat < 128 := by
      simp only [Run.contains, Bool.and_eq_true, decide_eq_true_eq] at hC
      omega
    rw [isWord, if_neg hLeast]
    rcases hBeyond with hLetters | hOthers
    · rw [Run.mem_of_within hLetters hC]
      simp only [Bool.true_or]
    · obtain ⟨s, hS, hIn⟩ := Run.contains_of_within hOthers hC
      simp only [List.mem_cons, List.not_mem_nil, or_false] at hS
      rcases hS with rfl | rfl
      · rw [Run.mem_of_within iotaRun_within hIn]
        simp only [Bool.true_or, Bool.or_true]
      · rw [Run.mem_of_within circledRun_within hIn]
        simp only [Bool.true_or, Bool.or_true]

/-- Every shift of letter case leads from letters to letters. -/
theorem keepsWords_of_mem {s : Shift} (h : s ∈ foldShifts) :
    1 ≤ s.run.first ∧ 0 ≤ s.run.first + s.distance ∧ s.run.ofWords letterRuns = true ∧
      (s.run.moved s.distance).ofWords letterRuns = true := by
  have hKeeps := List.all_eq_true.1 keepsWords_foldShifts s h
  simp only [Shift.keepsWords, Bool.and_eq_true, Nat.ble_eq, decide_eq_true_eq] at hKeeps
  exact ⟨hKeeps.1.1.1, hKeeps.1.1.2, hKeeps.1.2, hKeeps.2⟩

/-- A character is its own representative, or of a word. -/
theorem fold_eq_or_isWord (c : Char) : fold c = c ∨ isWord c = true := by
  rw [fold]
  split
  · rename_i hAscii
    by_cases hUpper : c.val ≥ 'A'.val ∧ c.val ≤ 'Z'.val
    · have hLeast : 65 ≤ c.toNat := hUpper.1
      have hMost : c.toNat ≤ 90 := hUpper.2
      exact .inr ((isWord_ascii hAscii).2 (.inr (.inl ⟨hLeast, hMost⟩)))
    · exact .inl (dif_neg hUpper)
  · rw [Shift.apply]
    split
    · rename_i s hFound
      obtain ⟨_, _, hWords, _⟩ := keepsWords_of_mem (List.mem_of_find?_eq_some hFound)
      have hIn : s.run.contains c.toNat = true :=
        List.find?_some (p := fun s : Shift => s.run.contains c.toNat) hFound
      exact .inr (isWord_of_ofWords hWords hIn)
    · exact .inl rfl

/-- A character that represents others is of a word. -/
theorem isWord_of_mem_unfold {c v : Char} (h : v ∈ unfold c) : isWord c = true := by
  obtain ⟨s, hS, hSource⟩ := List.mem_filterMap.1 h
  obtain ⟨hFirst, hMoved, _, hWords⟩ := keepsWords_of_mem hS
  obtain ⟨hIn, _⟩ := Option.ite_none_right_eq_some.1 hSource
  refine isWord_of_ofWords hWords (Run.contains_moved hMoved hIn ?_)
  simp only [Run.contains, Bool.and_eq_true, decide_eq_true_eq] at hIn
  change (c.toNat : Int) = ((c.toNat : Int) - s.distance).toNat + s.distance
  have hLeast : s.run.first ≤ ((c.toNat : Int) - s.distance).toNat := hIn.1.1
  omega

/-- A character that differs in case only from one of a word is itself of a word. -/
theorem isWord_of_mem_caseVariants {c v : Char} (h : v ∈ caseVariants c) (hV : isWord v = true) :
    isWord c = true := by
  rcases fold_eq_or_isWord c with hSame | hWord
  · rw [caseVariants, hSame, List.mem_cons] at h
    rcases h with rfl | hOther
    · exact hV
    · exact isWord_of_mem_unfold hOther
  · exact hWord

/-- Only characters of words have a letter case. -/
theorem caseVariants_of_not_isWord {c : Char} (h : isWord c = false) : caseVariants c = [c] := by
  have hFold : fold c = c := (fold_eq_or_isWord c).resolve_right (by simp [h])
  rw [caseVariants, hFold]
  refine congrArg (c :: ·) (List.eq_nil_iff_forall_not_mem.2 fun v hV => ?_)
  exact absurd (isWord_of_mem_unfold hV) (by simp [h])

end SourceSurvey.Text
