import SourceSurvey.Text.Utf8
import Mathlib.Algebra.Group.Nat.Defs

/-!
Texts from bytes. A character of one byte ends whatever has begun before it, and no other byte takes
part in one, so what stands between such characters in a text are the texts of what stands between
their bytes. The bytes of a text give the text back, and what is read without replacement gives the
bytes back.
-/

namespace SourceSurvey.Text

variable {pending : Option Beginning} {p : Beginning} {b : UInt8} {bytes rest : List UInt8}

/-! ### One byte -/

/-- Outside a character the first byte tells how many follow. -/
theorem charsOfBytes_none_cons (b : UInt8) (rest : List UInt8) : charsOfBytes none (b :: rest) =
    match firstByte b with
    | none => none :: charsOfBytes none rest
    | some (.inl c) => some c :: charsOfBytes none rest
    | some (.inr p) => charsOfBytes (some p) rest := by
  rw [charsOfBytes]
  rfl

/-- A byte that continues a character. -/
theorem charsOfBytes_some_of_within (h : p.least ≤ b ∧ b ≤ p.greatest) (rest : List UInt8) :
    charsOfBytes (some p) (b :: rest) =
      if p.missing = 1 then
        some (Char.ofNat (p.bits * 64 + (b.toNat - 0x80))) :: charsOfBytes none rest
      else
        charsOfBytes (some ⟨p.bits * 64 + (b.toNat - 0x80), p.missing - 1, 0x80, 0xBF⟩) rest := by
  rw [charsOfBytes]
  simp only [if_pos h]

/-- A byte that does not continue a character is read as a first byte. -/
theorem charsOfBytes_some_of_not_within (h : ¬(p.least ≤ b ∧ b ≤ p.greatest)) (rest : List UInt8) :
    charsOfBytes (some p) (b :: rest) = none :: charsOfBytes none (b :: rest) := by
  rw [charsOfBytes_none_cons, charsOfBytes]
  simp only [if_neg h]
  cases firstByte b with
  | none => rfl
  | some found => cases found <;> rfl

/-- A byte below 128 is a character by itself. -/
theorem firstByte_of_lt (h : b.toNat < 0x80) :
    firstByte b = some (.inl (Char.ofNat b.toNat)) := by
  rw [firstByte]
  exact if_pos h

/-- Of a character that has begun something is seen, whatever follows. -/
theorem charsOfBytes_some_ne_nil (p : Beginning) (bytes : List UInt8) :
    charsOfBytes (some p) bytes ≠ [] := by
  induction bytes generalizing p with
  | nil => simp [charsOfBytes]
  | cons b rest ih =>
      simp only [charsOfBytes]
      split
      · split
        · simp
        · exact ih _
      · split <;> simp

theorem charsOfBytes_none_eq_nil_iff {bytes : List UInt8} :
    charsOfBytes none bytes = [] ↔ bytes = [] := by
  cases bytes with
  | nil => simp [charsOfBytes]
  | cons b rest =>
      simp only [charsOfBytes, reduceCtorEq, iff_false]
      split
      · simp
      · simp
      · simpa using charsOfBytes_some_ne_nil _ rest

/-- No bytes are lost: each adds a character, if only a replacement. -/
theorem ofBytes_eq_empty_iff {bytes : List UInt8} : ofBytes bytes = "" ↔ bytes = [] := by
  rw [← charsOfBytes_none_eq_nil_iff, ofBytes, ← String.toList_inj]
  simp

/-! ### Separators -/

/-- A character of one byte, other than the null character, which stands for no number at all. -/
def IsSeparator (c : Char) : Prop := 0 < c.toNat ∧ c.toNat < 0x80

instance : DecidablePred IsSeparator := fun _ => inferInstanceAs (Decidable (_ ∧ _))

/-- The byte of a character of one byte. -/
def byteOf (c : Char) : UInt8 := UInt8.ofNat c.toNat

variable {c : Char}

theorem toNat_byteOf (hc : IsSeparator c) : (byteOf c).toNat = c.toNat :=
  UInt8.toNat_ofNat_of_lt (Nat.lt_trans hc.2 (by decide))

/-- What has begun is no character of one byte: the next byte is none, and the number of the
character will be larger, whatever the bytes that are missing. -/
structure Beginning.Late (p : Beginning) : Prop where
  least : 0x80 ≤ p.least.toNat
  missing : 0 < p.missing
  above : 0x80 ≤ (p.bits * 64 + (p.least.toNat - 0x80)) * 64 ^ (p.missing - 1)

theorem late_mk {bits missing least : Nat} {greatest : UInt8} (hByte : least < 256)
    (hLeast : 0x80 ≤ least) (hMissing : 0 < missing)
    (hAbove : 0x80 ≤ (bits * 64 + (least - 0x80)) * 64 ^ (missing - 1)) :
    Beginning.Late ⟨bits, missing, UInt8.ofNat least, greatest⟩ := by
  have hNumber : (UInt8.ofNat least).toNat = least := UInt8.toNat_ofNat_of_lt hByte
  constructor
  · rwa [hNumber]
  · exact hMissing
  · rwa [hNumber]

/-- A byte beyond ASCII begins a character of several bytes, or none. -/
theorem firstByte_of_ge (h : 0x80 ≤ b.toNat) :
    firstByte b = none ∨ ∃ p, p.Late ∧ firstByte b = some (.inr p) := by
  simp only [firstByte, if_neg (Nat.not_lt.2 h)]
  split
  · exact .inl rfl
  split
  · refine .inr ⟨_, ?_, rfl⟩
    exact @late_mk _ 1 0x80 _ (by decide) (by decide) (by decide) (by omega)
  split
  · refine .inr ⟨_, ?_, rfl⟩
    split
    · exact @late_mk _ 2 0xA0 _ (by decide) (by decide) (by decide) (by omega)
    · exact @late_mk _ 2 0x80 _ (by decide) (by decide) (by decide) (by omega)
  split
  · refine .inr ⟨_, ?_, rfl⟩
    split
    · exact @late_mk _ 3 0x90 _ (by decide) (by decide) (by decide) (by omega)
    · exact @late_mk _ 3 0x80 _ (by decide) (by decide) (by decide) (by omega)
  · exact .inl rfl

/-- The bits of what has begun grow with every further byte. -/
theorem Beginning.Late.continued (h : p.Late) (hWithin : p.least ≤ b) :
    0x80 ≤ (p.bits * 64 + (b.toNat - 0x80)) * 64 ^ (p.missing - 1) := by
  have hByte : p.least.toNat ≤ b.toNat := hWithin
  exact Nat.le_trans h.above (Nat.mul_le_mul_right _ (by omega))

/-- A character that is too large to be a separator stays so as it is continued. -/
theorem Beginning.Late.next (h : p.Late) (hWithin : p.least ≤ b) (hMore : p.missing ≠ 1) :
    Beginning.Late ⟨p.bits * 64 + (b.toNat - 0x80), p.missing - 1, 0x80, 0xBF⟩ := by
  have hBits := h.continued hWithin
  have hMissing := h.missing
  obtain ⟨missing, hMissing⟩ : ∃ missing, p.missing = missing + 2 := ⟨p.missing - 2, by omega⟩
  rw [hMissing] at hBits ⊢
  refine @late_mk _ (missing + 1) 0x80 _ (by decide) (by decide) (by omega) ?_
  rw [Nat.add_sub_cancel, Nat.sub_self, Nat.add_zero, Nat.mul_assoc, ← Nat.pow_succ']
  exact hBits

/-- A character of several bytes is no separator. -/
theorem ofNat_ne_separator (hc : IsSeparator c) {n : Nat} (h : 0x80 ≤ n) : Char.ofNat n ≠ c := by
  rintro rfl
  by_cases hValid : n.isValidChar
  · have hNumber : (Char.ofNat n).toNat = n := by
      rw [Char.ofNat, dif_pos hValid]
      rfl
    have hSmall := hc.2
    omega
  · rw [Char.ofNat, dif_neg hValid] at hc
    exact absurd hc (by decide)

theorem count_ascii (hc : IsSeparator c) (h : b.toNat < 0x80) :
    [some (Char.ofNat b.toNat)].count (some c) = [b].count (byteOf c) := by
  have hNumber : (Char.ofNat b.toNat).toNat = b.toNat := by
    rw [Char.ofNat, dif_pos (.inl (by omega))]
    rfl
  have hSame : Char.ofNat b.toNat = c ↔ b = byteOf c := by
    rw [← Char.toNat_inj, hNumber, ← UInt8.toNat_inj, toNat_byteOf hc]
  by_cases hB : b = byteOf c
  · rw [hSame.2 hB, hB, List.count_singleton_self, List.count_singleton_self]
  · simp [hSame, hB]

/-- A separator ends what has begun before it. -/
theorem charsOfBytes_separator (hc : IsSeparator c) (h : ∀ p ∈ pending, p.Late)
    (rest : List UInt8) :
    charsOfBytes pending (byteOf c :: rest) =
      charsOfBytes pending [] ++ some c :: charsOfBytes none rest := by
  have hByte := toNat_byteOf hc
  have hFirst : charsOfBytes none (byteOf c :: rest) = some c :: charsOfBytes none rest := by
    rw [charsOfBytes_none_cons, firstByte_of_lt (hByte ▸ hc.2), hByte, Char.ofNat_toNat]
  cases pending with
  | none => exact hFirst
  | some p =>
      have hLeast := (h p rfl).least
      have hSmall := hc.2
      have hNot : ¬(p.least ≤ byteOf c ∧ byteOf c ≤ p.greatest) := by
        rintro ⟨hWithin, _⟩
        have hNumber : p.least.toNat ≤ (byteOf c).toNat := hWithin
        omega
      rw [charsOfBytes_some_of_not_within hNot, hFirst]
      rfl

/-- No byte of a longer character is that of a separator. -/
theorem count_of_ge (hc : IsSeparator c) (h : 0x80 ≤ b.toNat) : [b].count (byteOf c) = 0 := by
  rw [List.count_eq_zero, List.mem_singleton]
  rintro rfl
  have hByte := toNat_byteOf hc
  have hSmall := hc.2
  omega

/-- What bytes add to the characters: so many separators as they have, and what has begun with them,
whatever follows. -/
structure Reads (c : Char) (pending : Option Beginning) (bytes : List UInt8)
    (read : List (Option Char)) (next : Option Beginning) : Prop where
  late : ∀ p ∈ next, p.Late
  count : read.count (some c) = bytes.count (byteOf c)
  append : ∀ rest, charsOfBytes pending (bytes ++ rest) = read ++ charsOfBytes next rest

theorem exists_reads_first (hc : IsSeparator c) (b : UInt8) :
    ∃ read next, Reads c none [b] read next := by
  have hNone : ∀ p ∈ (none : Option Beginning), p.Late := fun p hP => nomatch hP
  by_cases hAscii : b.toNat < 0x80
  · refine ⟨[some (Char.ofNat b.toNat)], none, hNone, count_ascii hc hAscii, fun rest => ?_⟩
    rw [List.singleton_append, charsOfBytes_none_cons, firstByte_of_lt hAscii,
      List.singleton_append]
  · have hByte := Nat.le_of_not_lt hAscii
    rcases firstByte_of_ge hByte with hNo | ⟨p, hLate, hBegins⟩
    · refine ⟨[none], none, hNone, (count_of_ge hc hByte).symm, fun rest => ?_⟩
      rw [List.singleton_append, charsOfBytes_none_cons, hNo, List.singleton_append]
    · refine ⟨[], some p, ?_, (count_of_ge hc hByte).symm, fun rest => ?_⟩
      · exact fun q hQ => Option.mem_some.1 hQ ▸ hLate
      · rw [List.singleton_append, charsOfBytes_none_cons, hBegins, List.nil_append]

/-- Any byte can be read next. It counts as a separator or does not, whatever comes behind it. -/
theorem exists_reads_byte (hc : IsSeparator c) (h : ∀ p ∈ pending, p.Late) (b : UInt8) :
    ∃ read next, Reads c pending [b] read next := by
  cases pending with
  | none => exact exists_reads_first hc b
  | some p =>
      by_cases hWithin : p.least ≤ b ∧ b ≤ p.greatest
      · have hCount := count_of_ge hc (Nat.le_trans (h p rfl).least hWithin.1)
        by_cases hLast : p.missing = 1
        · have hAbove := (h p rfl).continued hWithin.1
          rw [hLast, Nat.sub_self, Nat.pow_zero, Nat.mul_one] at hAbove
          have hOther := ofNat_ne_separator hc hAbove
          refine ⟨[some (Char.ofNat (p.bits * 64 + (b.toNat - 0x80)))], none,
            (fun p hP => nomatch hP), ?_, fun rest => ?_⟩
          · rw [hCount, List.count_eq_zero, List.mem_singleton, Option.some.injEq]
            exact hOther.symm
          · rw [List.singleton_append, charsOfBytes_some_of_within hWithin, if_pos hLast,
              List.singleton_append]
        · refine ⟨[], some ⟨p.bits * 64 + (b.toNat - 0x80), p.missing - 1, 0x80, 0xBF⟩, ?_,
            hCount.symm, fun rest => ?_⟩
          · exact fun q hQ => Option.mem_some.1 hQ ▸ (h p rfl).next hWithin.1 hLast
          · rw [List.singleton_append, charsOfBytes_some_of_within hWithin, if_neg hLast,
              List.nil_append]
      · obtain ⟨read, next, hLate, hCount, hRead⟩ := exists_reads_first hc b
        refine ⟨none :: read, next, hLate, ?_, fun rest => ?_⟩
        · rw [List.count_cons_of_ne (by simp), hCount]
        · have hSame : charsOfBytes none (b :: rest) = read ++ charsOfBytes next rest := hRead rest
          rw [List.singleton_append, charsOfBytes_some_of_not_within hWithin, hSame,
            List.cons_append]

/-- By induction over the bytes. -/
theorem exists_reads (hc : IsSeparator c) (h : ∀ p ∈ pending, p.Late) (bytes : List UInt8) :
    ∃ read next, Reads c pending bytes read next := by
  induction bytes generalizing pending with
  | nil => exact ⟨[], pending, h, rfl, fun rest => rfl⟩
  | cons b bytes ih =>
      obtain ⟨first, between, hFirst⟩ := exists_reads_byte hc h b
      obtain ⟨read, next, hRest⟩ := ih hFirst.late
      refine ⟨first ++ read, next, hRest.late, ?_, fun rest => ?_⟩
      · rw [List.count_append, hFirst.count, hRest.count, ← List.count_append,
          List.singleton_append]
      · rw [← List.singleton_append, List.append_assoc, hFirst.append, hRest.append,
          List.append_assoc]

/-- As many separators are read as there are. -/
theorem count_charsOfBytes (hc : IsSeparator c) (bytes : List UInt8) :
    (charsOfBytes none bytes).count (some c) = bytes.count (byteOf c) := by
  obtain ⟨read, next, h⟩ := exists_reads hc (fun p (hP : p ∈ none) => nomatch hP) bytes
  have hEnd : (charsOfBytes next []).count (some c) = 0 := by cases next <;> rfl
  have hAll := h.append []
  rw [List.append_nil] at hAll
  rw [hAll, List.count_append, h.count, hEnd, Nat.add_zero]

/-- The characters of bytes with a separator are those of the bytes before it and behind it. -/
theorem charsOfBytes_append_separator (hc : IsSeparator c) (bytes rest : List UInt8) :
    charsOfBytes none (bytes ++ byteOf c :: rest) =
      charsOfBytes none bytes ++ some c :: charsOfBytes none rest := by
  obtain ⟨read, next, h⟩ := exists_reads hc (fun p (hP : p ∈ none) => nomatch hP) bytes
  have hAll := h.append []
  rw [List.append_nil] at hAll
  rw [h.append, charsOfBytes_separator hc h.late, hAll, List.append_assoc]

/-! ### Texts -/

/-- A separator is found just where its byte stands, also between bytes that are no text. -/
theorem count_separator_ofBytes (hc : IsSeparator c) (bytes : List UInt8) :
    (ofBytes bytes).toList.count c = bytes.count (byteOf c) := by
  rw [ofBytes, String.toList_ofList, ← count_charsOfBytes hc]
  generalize charsOfBytes none bytes = chars
  induction chars with
  | nil => rfl
  | cons found chars ih =>
      have hSame : found.getD replacement = c ↔ found = some c := by
        cases found with
        | none =>
            refine iff_of_false ?_ (by simp)
            rintro rfl
            exact absurd hc (by decide)
        | some found => simp
      rw [List.map_cons, List.count_cons, List.count_cons, ih]
      simp only [beq_iff_eq, hSame]

/-- A separator ends whatever has been begun before it, so both sides are read by themselves. -/
theorem toList_ofBytes_append_separator (hc : IsSeparator c) (bytes rest : List UInt8) :
    (ofBytes (bytes ++ byteOf c :: rest)).toList =
      (ofBytes bytes).toList ++ c :: (ofBytes rest).toList := by
  simp only [ofBytes, String.toList_ofList, charsOfBytes_append_separator hc, List.map_append,
    List.map_cons, Option.getD_some]

/-- What stands between the separators of a text are the texts of what stands between their bytes. -/
theorem splitOn_separator_ofBytes (hc : IsSeparator c) (bytes : List UInt8) :
    (ofBytes bytes).toList.splitOn c =
      (bytes.splitOn (byteOf c)).map fun piece => (ofBytes piece).toList := by
  induction hLength : bytes.length using Nat.strongRecOn generalizing bytes with
  | ind n ih =>
      subst hLength
      by_cases hMem : byteOf c ∈ bytes
      · obtain ⟨before, behind, rfl⟩ := List.append_of_mem hMem
        rw [toList_ofBytes_append_separator hc, List.splitOn_append_cons_self,
          List.splitOn_append_cons_self, List.map_append,
          ih before.length (by simp) before rfl, ih behind.length (by simp; omega) behind rfl]
      · have hNone : c ∉ (ofBytes bytes).toList := by
          rw [← List.count_eq_zero, count_separator_ofBytes hc, List.count_eq_zero]
          exact hMem
        rw [List.splitOn_eq_singleton hMem, List.splitOn_eq_singleton hNone, List.map_singleton]

theorem count_ofBytes (bytes : List UInt8) :
    (ofBytes bytes).toList.count '\n' = bytes.count 0x0A :=
  count_separator_ofBytes (by decide) bytes

/-- The lines of a text are the texts of the lines of its bytes. -/
theorem splitOn_ofBytes (bytes : List UInt8) : (ofBytes bytes).toList.splitOn '\n' =
    (bytes.splitOn 0x0A).map fun line => (ofBytes line).toList :=
  splitOn_separator_ofBytes (by decide) bytes

/-! ### Bytes of texts -/

theorem toList_loop_eq (bytes : ByteArray) (i : Nat) (read : List UInt8) :
    ByteArray.toList.loop bytes i read = read.reverse ++ bytes.data.toList.drop i := by
  fun_induction ByteArray.toList.loop bytes i read with
  | case1 i read hMore ih =>
      have hIndex : i < bytes.data.toList.length := by simpa using hMore
      have hByte : bytes.get! i = bytes.data.toList[i] := by
        simpa [ByteArray.get!] using getElem!_pos bytes.data i hMore
      rw [ih, List.reverse_cons, List.append_assoc, List.singleton_append, hByte,
        ← List.drop_eq_getElem_cons hIndex]
  | case2 i read hDone =>
      have hLength : bytes.data.toList.length ≤ i := by simpa using Nat.le_of_not_lt hDone
      rw [List.drop_eq_nil_of_le hLength, List.append_nil]

/-- The bytes of a text are those of its characters. -/
theorem toBytes_eq (text : String) : toBytes text = text.toList.flatMap String.utf8EncodeChar := by
  have hBytes : text.toUTF8 = text.toList.utf8Encode := by
    conv => lhs; rw [← String.ofList_toList (s := text), String.toUTF8_eq_toByteArray]
    rfl
  rw [toBytes, hBytes, List.utf8Encode, ByteArray.toList, toList_loop_eq,
    List.toList_data_toByteArray]
  rfl

/-- A byte that continues a character, with six of its bits. -/
theorem charsOfBytes_continued {bits missing n : Nat} {least greatest : UInt8} (hByte : n < 64)
    (hLeast : least.toNat ≤ n + 0x80) (hGreatest : n + 0x80 ≤ greatest.toNat)
    (rest : List UInt8) :
    charsOfBytes (some ⟨bits, missing, least, greatest⟩) (UInt8.ofNat (n + 0x80) :: rest) =
      if missing = 1 then some (Char.ofNat (bits * 64 + n)) :: charsOfBytes none rest
      else charsOfBytes (some ⟨bits * 64 + n, missing - 1, 0x80, 0xBF⟩) rest := by
  have hSize : n + 0x80 < 2 ^ 8 := by omega
  have hNumber : (UInt8.ofNat (n + 0x80)).toNat = n + 0x80 := UInt8.toNat_ofNat_of_lt hSize
  have hWithin : least ≤ UInt8.ofNat (n + 0x80) ∧ UInt8.ofNat (n + 0x80) ≤ greatest := by
    rw [UInt8.le_iff_toNat_le, UInt8.le_iff_toNat_le, hNumber]
    exact ⟨hLeast, hGreatest⟩
  rw [charsOfBytes_some_of_within hWithin, hNumber, Nat.add_sub_cancel]

/-- Behind the second byte of a character any six bits may follow. -/
theorem charsOfBytes_tail {bits missing n : Nat} (hByte : n < 64) (rest : List UInt8) :
    charsOfBytes (some ⟨bits, missing, 0x80, 0xBF⟩) (UInt8.ofNat (n + 0x80) :: rest) =
      if missing = 1 then some (Char.ofNat (bits * 64 + n)) :: charsOfBytes none rest
      else charsOfBytes (some ⟨bits * 64 + n, missing - 1, 0x80, 0xBF⟩) rest := by
  have hLeast : (0x80 : UInt8).toNat ≤ n + 0x80 := Nat.le_add_left 0x80 n
  have hGreatest : n + 0x80 ≤ (0xBF : UInt8).toNat := by
    change n + 0x80 ≤ 191
    omega
  exact charsOfBytes_continued hByte hLeast hGreatest rest

theorem firstByte_two {n : Nat} (hLeast : 0xC2 ≤ n) (hLess : n < 0xE0) :
    firstByte (UInt8.ofNat n) = some (.inr ⟨n - 0xC0, 1, 0x80, 0xBF⟩) := by
  have hNumber : (UInt8.ofNat n).toNat = n :=
    UInt8.toNat_ofNat_of_lt (Nat.lt_trans hLess (by decide))
  rw [firstByte, hNumber]
  simp only [if_neg (show ¬n < 0x80 by omega), if_neg (show ¬n < 0xC2 by omega), if_pos hLess]

theorem firstByte_three {n : Nat} (hLeast : 0xE0 ≤ n) (hLess : n < 0xF0) :
    firstByte (UInt8.ofNat n) = some (.inr ⟨n - 0xE0, 2, if n = 0xE0 then 0xA0 else 0x80,
      if n = 0xED then 0x9F else 0xBF⟩) := by
  have hNumber : (UInt8.ofNat n).toNat = n :=
    UInt8.toNat_ofNat_of_lt (Nat.lt_trans hLess (by decide))
  rw [firstByte, hNumber]
  simp only [if_neg (show ¬n < 0x80 by omega), if_neg (show ¬n < 0xC2 by omega),
    if_neg (show ¬n < 0xE0 by omega), if_pos hLess]

theorem firstByte_four {n : Nat} (hLeast : 0xF0 ≤ n) (hLess : n < 0xF5) :
    firstByte (UInt8.ofNat n) = some (.inr ⟨n - 0xF0, 3, if n = 0xF0 then 0x90 else 0x80,
      if n = 0xF4 then 0x8F else 0xBF⟩) := by
  have hNumber : (UInt8.ofNat n).toNat = n :=
    UInt8.toNat_ofNat_of_lt (Nat.lt_trans hLess (by decide))
  rw [firstByte, hNumber]
  simp only [if_neg (show ¬n < 0x80 by omega), if_neg (show ¬n < 0xC2 by omega),
    if_neg (show ¬n < 0xE0 by omega), if_neg (show ¬n < 0xF0 by omega), if_pos hLess]

/-- Two bytes are read as the character that they are written for. -/
theorem charsOfBytes_two {v : Nat} (hLeast : 0x80 ≤ v) (hLess : v < 0x800) (rest : List UInt8) :
    charsOfBytes none (UInt8.ofNat (v / 64 % 32 + 192) :: UInt8.ofNat (v % 64 + 128) :: rest) =
      some (Char.ofNat v) :: charsOfBytes none rest := by
  have hBits : (v / 64 % 32 + 192 - 192) * 64 + v % 64 = v := by omega
  rw [charsOfBytes_none_cons, firstByte_two (by omega) (by omega)]
  simp only
  rw [charsOfBytes_tail (by omega), if_pos rfl, hBits]

/-- Three bytes are, unless they stand for half a pair. -/
theorem charsOfBytes_three {v : Nat} (hLeast : 0x800 ≤ v) (hLess : v < 0x10000)
    (hValid : v < 0xD800 ∨ 0xDFFF < v) (rest : List UInt8) :
    charsOfBytes none (UInt8.ofNat (v / 4096 % 16 + 224) :: UInt8.ofNat (v / 64 % 64 + 128) ::
        UInt8.ofNat (v % 64 + 128) :: rest) =
      some (Char.ofNat v) :: charsOfBytes none rest := by
  have hBits : ((v / 4096 % 16 + 224 - 224) * 64 + v / 64 % 64) * 64 + v % 64 = v := by omega
  have hSecondLeast : (if v / 4096 % 16 + 224 = 0xE0 then (0xA0 : UInt8) else 0x80).toNat ≤
      v / 64 % 64 + 0x80 := by
    split
    · change 160 ≤ _
      omega
    · exact Nat.le_add_left 0x80 _
  have hSecondGreatest : v / 64 % 64 + 0x80 ≤
      (if v / 4096 % 16 + 224 = 0xED then (0x9F : UInt8) else 0xBF).toNat := by
    split
    · change _ ≤ 159
      omega
    · change _ ≤ 191
      omega
  rw [charsOfBytes_none_cons, firstByte_three (by omega) (by omega)]
  simp only
  rw [charsOfBytes_continued (by omega) hSecondLeast hSecondGreatest, if_neg (by decide),
    charsOfBytes_tail (by omega), if_pos rfl, hBits]

/-- Four bytes are, too. -/
theorem charsOfBytes_four {v : Nat} (hLeast : 0x10000 ≤ v) (hLess : v < 0x110000)
    (rest : List UInt8) :
    charsOfBytes none (UInt8.ofNat (v / 262144 % 8 + 240) :: UInt8.ofNat (v / 4096 % 64 + 128) ::
        UInt8.ofNat (v / 64 % 64 + 128) :: UInt8.ofNat (v % 64 + 128) :: rest) =
      some (Char.ofNat v) :: charsOfBytes none rest := by
  have hBits : (((v / 262144 % 8 + 240 - 240) * 64 + v / 4096 % 64) * 64 + v / 64 % 64) * 64 +
      v % 64 = v := by
    omega
  have hSecondLeast : (if v / 262144 % 8 + 240 = 0xF0 then (0x90 : UInt8) else 0x80).toNat ≤
      v / 4096 % 64 + 0x80 := by
    split
    · change 144 ≤ _
      omega
    · exact Nat.le_add_left 0x80 _
  have hSecondGreatest : v / 4096 % 64 + 0x80 ≤
      (if v / 262144 % 8 + 240 = 0xF4 then (0x8F : UInt8) else 0xBF).toNat := by
    split
    · change _ ≤ 143
      omega
    · change _ ≤ 191
      omega
  rw [charsOfBytes_none_cons, firstByte_four (by omega) (by omega)]
  simp only
  rw [charsOfBytes_continued (by omega) hSecondLeast hSecondGreatest, if_neg (by decide),
    charsOfBytes_tail (by omega), if_neg (by decide), charsOfBytes_tail (by omega), if_pos rfl,
    hBits]

/-- The bytes of a character are read as the character. -/
theorem charsOfBytes_utf8EncodeChar (c : Char) (rest : List UInt8) :
    charsOfBytes none (String.utf8EncodeChar c ++ rest) = some c :: charsOfBytes none rest := by
  have hChar : Char.ofNat c.val.toNat = c := Char.ofNat_toNat c
  have hValid : c.val.toNat < 0xD800 ∨ 0xDFFF < c.val.toNat ∧ c.val.toNat < 0x110000 := c.valid
  conv => rhs; rw [← hChar]
  rw [String.utf8EncodeChar]
  generalize c.val.toNat = v at hValid ⊢
  split
  · rename_i hOne
    have hByte : (UInt8.ofNat v).toNat = v :=
      UInt8.toNat_ofNat_of_lt (Nat.lt_of_le_of_lt hOne (by decide))
    rw [List.singleton_append, charsOfBytes_none_cons, firstByte_of_lt (by omega), hByte]
  split
  · exact charsOfBytes_two (by omega) (by omega) rest
  split
  · exact charsOfBytes_three (by omega) (by omega) (by omega) rest
  · exact charsOfBytes_four (by omega) (by omega) rest

/-- The bytes of a text are read as its characters. -/
theorem charsOfBytes_toBytes (text : String) :
    charsOfBytes none (toBytes text) = text.toList.map some := by
  rw [toBytes_eq]
  induction text.toList with
  | nil => rfl
  | cons c cs ih => rw [List.flatMap_cons, charsOfBytes_utf8EncodeChar, ih, List.map_cons]

/-- The bytes of a text are read as the text. -/
theorem ofBytes_toBytes (text : String) : ofBytes (toBytes text) = text := by
  have hText : (text.toList.map some).map (·.getD replacement) = text.toList := by
    rw [List.map_map]
    exact List.map_id _
  rw [ofBytes, charsOfBytes_toBytes, hText, String.ofList_toList]

/-- Valid bytes are read as the text that has them. -/
theorem ofBytes_of_isValidUTF8 {bytes : List UInt8} (h : bytes.toByteArray.IsValidUTF8) :
    ofBytes bytes = String.fromUTF8 bytes.toByteArray h := by
  have hBytes : toBytes (String.fromUTF8 bytes.toByteArray h) = bytes := by
    rw [toBytes, String.toUTF8_eq_toByteArray, String.fromUTF8, ByteArray.toList, toList_loop_eq,
      List.toList_data_toByteArray]
    rfl
  conv => lhs; rw [← hBytes]
  exact ofBytes_toBytes _

/-! ### Bytes that are read without replacement -/

/-- The form of the character with a number. -/
theorem utf8EncodeChar_ofNat {v : Nat} (h : v.isValidChar) :
    String.utf8EncodeChar (Char.ofNat v) =
      if v ≤ 127 then [UInt8.ofNat v]
      else if v ≤ 2047 then [UInt8.ofNat (v / 64 % 32 + 192), UInt8.ofNat (v % 64 + 128)]
      else if v ≤ 65535 then
        [UInt8.ofNat (v / 4096 % 16 + 224), UInt8.ofNat (v / 64 % 64 + 128),
          UInt8.ofNat (v % 64 + 128)]
      else
        [UInt8.ofNat (v / 262144 % 8 + 240), UInt8.ofNat (v / 4096 % 64 + 128),
          UInt8.ofNat (v / 64 % 64 + 128), UInt8.ofNat (v % 64 + 128)] := by
  have hNumber : (Char.ofNat v).val.toNat = v := by
    rw [Char.ofNat, dif_pos h]
    rfl
  simp only [String.utf8EncodeChar, hNumber]

theorem eq_ofNat {n : Nat} (h : b.toNat = n) : b = UInt8.ofNat n := by
  rw [← h, UInt8.ofNat_toNat]

section Forms

variable {bits missing n : Nat} {least greatest : UInt8} {chars : List (Option Char)}

/-- A character that has begun goes on with a byte within the bounds. -/
theorem exists_within_of_charsOfBytes (h : charsOfBytes (some p) bytes = some c :: chars) :
    ∃ b rest, bytes = b :: rest ∧ p.least ≤ b ∧ b ≤ p.greatest := by
  cases bytes with
  | nil => simp [charsOfBytes] at h
  | cons b rest =>
      by_cases hWithin : p.least ≤ b ∧ b ≤ p.greatest
      · exact ⟨b, rest, rfl, hWithin⟩
      · rw [charsOfBytes_some_of_not_within hWithin] at h
        cases h

theorem exists_last_byte (h : charsOfBytes (some ⟨bits, 1, least, greatest⟩) bytes =
    some c :: chars) : ∃ b rest, bytes = b :: rest ∧ least.toNat ≤ b.toNat ∧
      b.toNat ≤ greatest.toNat ∧ Char.ofNat (bits * 64 + (b.toNat - 0x80)) = c := by
  obtain ⟨b, rest, rfl, hWithin⟩ := exists_within_of_charsOfBytes h
  rw [charsOfBytes_some_of_within hWithin, if_pos rfl] at h
  exact ⟨b, rest, rfl, hWithin.1, hWithin.2, Option.some.inj (List.cons.inj h).1⟩

theorem exists_inner_byte
    (h : charsOfBytes (some ⟨bits, missing + 2, least, greatest⟩) bytes = some c :: chars) :
    ∃ b rest, bytes = b :: rest ∧ least.toNat ≤ b.toNat ∧ b.toNat ≤ greatest.toNat ∧
      charsOfBytes (some ⟨bits * 64 + (b.toNat - 0x80), missing + 1, 0x80, 0xBF⟩) rest =
        some c :: chars := by
  obtain ⟨b, rest, rfl, hWithin⟩ := exists_within_of_charsOfBytes h
  rw [charsOfBytes_some_of_within hWithin, if_neg (by simp)] at h
  exact ⟨b, rest, rfl, hWithin.1, hWithin.2, h⟩

/-- Bytes that are read as a character of two bytes are written as that character. -/
theorem exists_form_of_two (hByte : b.toNat = n) (hLeast : 0xC2 ≤ n) (hLess : n < 0xE0)
    (h : charsOfBytes (some ⟨n - 0xC0, 1, 0x80, 0xBF⟩) bytes = some c :: chars) :
    ∃ rest, b :: bytes = String.utf8EncodeChar c ++ rest := by
  obtain ⟨second, rest, rfl, hFrom, hTo, hChar⟩ := exists_last_byte h
  change 128 ≤ second.toNat at hFrom
  change second.toNat ≤ 191 at hTo
  generalize hNumber : (n - 0xC0) * 64 + (second.toNat - 0x80) = v at hChar
  have hB : b = UInt8.ofNat (v / 64 % 32 + 192) := eq_ofNat (by omega)
  have hSecond : second = UInt8.ofNat (v % 64 + 128) := eq_ofNat (by omega)
  refine ⟨rest, ?_⟩
  rw [← hChar, utf8EncodeChar_ofNat (.inl (by omega)), if_neg (by omega), if_pos (by omega), ← hB,
    ← hSecond]
  rfl

theorem exists_form_of_three (hByte : b.toNat = n) (hLeast : 0xE0 ≤ n) (hLess : n < 0xF0)
    (h : charsOfBytes (some ⟨n - 0xE0, 2, if n = 0xE0 then 0xA0 else 0x80,
      if n = 0xED then 0x9F else 0xBF⟩) bytes = some c :: chars) :
    ∃ rest, b :: bytes = String.utf8EncodeChar c ++ rest := by
  obtain ⟨second, rest, rfl, hLow, hHigh, hMore⟩ := exists_inner_byte h
  obtain ⟨third, rest, rfl, hFrom, hTo, hChar⟩ := exists_last_byte hMore
  change 128 ≤ third.toNat at hFrom
  change third.toNat ≤ 191 at hTo
  rw [apply_ite UInt8.toNat] at hLow hHigh
  change (if n = 0xE0 then 160 else 128) ≤ second.toNat at hLow
  change second.toNat ≤ (if n = 0xED then 159 else 191) at hHigh
  generalize hNumber :
    ((n - 0xE0) * 64 + (second.toNat - 0x80)) * 64 + (third.toNat - 0x80) = v at hChar
  -- the bounds of the second byte keep out shorter forms and the numbers that are no characters
  have hRange : 2048 ≤ v ∧ v < 65536 ∧ (v < 0xD800 ∨ 0xDFFF < v) ∧ 128 ≤ second.toNat ∧
      second.toNat ≤ 191 := by
    split at hLow <;> split at hHigh <;> omega
  have hB : b = UInt8.ofNat (v / 4096 % 16 + 224) := eq_ofNat (by omega)
  have hSecond : second = UInt8.ofNat (v / 64 % 64 + 128) := eq_ofNat (by omega)
  have hThird : third = UInt8.ofNat (v % 64 + 128) := eq_ofNat (by omega)
  have hValid : v.isValidChar := by
    unfold Nat.isValidChar
    omega
  refine ⟨rest, ?_⟩
  rw [← hChar, utf8EncodeChar_ofNat hValid, if_neg (by omega), if_neg (by omega),
    if_pos (by omega), ← hB, ← hSecond, ← hThird]
  rfl

theorem exists_form_of_four (hByte : b.toNat = n) (hLeast : 0xF0 ≤ n) (hLess : n < 0xF5)
    (h : charsOfBytes (some ⟨n - 0xF0, 3, if n = 0xF0 then 0x90 else 0x80,
      if n = 0xF4 then 0x8F else 0xBF⟩) bytes = some c :: chars) :
    ∃ rest, b :: bytes = String.utf8EncodeChar c ++ rest := by
  obtain ⟨second, rest, rfl, hLow, hHigh, hMore⟩ := exists_inner_byte h
  obtain ⟨third, rest, rfl, hFrom, hTo, hMore⟩ := exists_inner_byte hMore
  obtain ⟨fourth, rest, rfl, hFrom', hTo', hChar⟩ := exists_last_byte hMore
  change 128 ≤ third.toNat at hFrom
  change third.toNat ≤ 191 at hTo
  change 128 ≤ fourth.toNat at hFrom'
  change fourth.toNat ≤ 191 at hTo'
  rw [apply_ite UInt8.toNat] at hLow hHigh
  change (if n = 0xF0 then 144 else 128) ≤ second.toNat at hLow
  change second.toNat ≤ (if n = 0xF4 then 143 else 191) at hHigh
  generalize hNumber : (((n - 0xF0) * 64 + (second.toNat - 0x80)) * 64 + (third.toNat - 0x80)) * 64 +
    (fourth.toNat - 0x80) = v at hChar
  have hRange : 65536 ≤ v ∧ v < 0x110000 ∧ 128 ≤ second.toNat ∧ second.toNat ≤ 191 := by
    split at hLow <;> split at hHigh <;> omega
  have hB : b = UInt8.ofNat (v / 262144 % 8 + 240) := eq_ofNat (by omega)
  have hSecond : second = UInt8.ofNat (v / 4096 % 64 + 128) := eq_ofNat (by omega)
  have hThird : third = UInt8.ofNat (v / 64 % 64 + 128) := eq_ofNat (by omega)
  have hFourth : fourth = UInt8.ofNat (v % 64 + 128) := eq_ofNat (by omega)
  have hValid : v.isValidChar := .inr (by omega)
  refine ⟨rest, ?_⟩
  rw [← hChar, utf8EncodeChar_ofNat hValid, if_neg (by omega), if_neg (by omega),
    if_neg (by omega), ← hB, ← hSecond, ← hThird, ← hFourth]
  rfl

/-- A character that is read without replacement has its form where it is read. -/
theorem exists_form_of_charsOfBytes (h : charsOfBytes none bytes = some c :: chars) :
    ∃ rest, bytes = String.utf8EncodeChar c ++ rest ∧ charsOfBytes none rest = chars := by
  have hForm : ∃ rest, bytes = String.utf8EncodeChar c ++ rest := by
    cases bytes with
    | nil => simp [charsOfBytes] at h
    | cons b bytes =>
        rw [charsOfBytes_none_cons] at h
        by_cases hOne : b.toNat < 0x80
        · rw [firstByte_of_lt hOne] at h
          cases h
          refine ⟨bytes, ?_⟩
          rw [utf8EncodeChar_ofNat (.inl (by omega)), if_pos (by omega), UInt8.ofNat_toNat]
          rfl
        · simp only [firstByte, if_neg hOne] at h
          by_cases hNone : b.toNat < 0xC2
          · simp [if_pos hNone] at h
          by_cases hTwo : b.toNat < 0xE0
          · simp only [if_neg hNone, if_pos hTwo] at h
            exact exists_form_of_two rfl (by omega) hTwo h
          by_cases hThree : b.toNat < 0xF0
          · simp only [if_neg hNone, if_neg hTwo, if_pos hThree] at h
            exact exists_form_of_three rfl (by omega) hThree h
          by_cases hFour : b.toNat < 0xF5
          · simp only [if_neg hNone, if_neg hTwo, if_neg hThree, if_pos hFour] at h
            exact exists_form_of_four rfl (by omega) hFour h
          · simp [if_neg hTwo, if_neg hThree, if_neg hFour] at h
  obtain ⟨rest, rfl⟩ := hForm
  rw [charsOfBytes_utf8EncodeChar] at h
  exact ⟨rest, rfl, (List.cons.inj h).2⟩

end Forms

/-- By induction over the characters: bytes that are read without a fault are those that the
characters are written as. -/
theorem bytes_eq_of_charsOfBytes {cs : List Char} (h : charsOfBytes none bytes = cs.map some) :
    bytes = cs.flatMap String.utf8EncodeChar := by
  induction cs generalizing bytes with
  | nil => exact charsOfBytes_none_eq_nil_iff.1 h
  | cons c cs ih =>
      obtain ⟨rest, rfl, hRest⟩ := exists_form_of_charsOfBytes h
      rw [ih hRest, List.flatMap_cons]

theorem mapM_id_eq_some_iff {found : List (Option Char)} {cs : List Char} :
    found.mapM id = some cs ↔ found = cs.map some := by
  induction found generalizing cs with
  | nil => cases cs <;> simp
  | cons c found ih =>
      cases cs with
      | nil => simp [List.mapM_cons, Option.bind_eq_some_iff]
      | cons d cs => simp [List.mapM_cons, Option.bind_eq_some_iff, ih]

/-- Bytes are a text exactly if they are its form. -/
theorem ofBytes?_eq_some_iff {text : String} :
    ofBytes? bytes = some text ↔ toBytes text = bytes := by
  rw [ofBytes?, Option.map_eq_some_iff]
  constructor
  · rintro ⟨cs, hChars, rfl⟩
    rw [toBytes_eq, String.toList_ofList,
      bytes_eq_of_charsOfBytes (mapM_id_eq_some_iff.1 hChars)]
  · rintro rfl
    exact ⟨text.toList, mapM_id_eq_some_iff.2 (charsOfBytes_toBytes text), String.ofList_toList⟩

theorem none_mem_of_mapM_id {found : List (Option Char)} (h : found.mapM id = none) :
    none ∈ found := by
  induction found with
  | nil => cases h
  | cons c found ih =>
      cases c with
      | none => exact List.mem_cons_self
      | some c =>
          cases hRest : found.mapM id with
          | none => exact List.mem_cons_of_mem _ (ih hRest)
          | some cs => simp [List.mapM_cons, hRest] at h

/-- In bytes that are no text something is replaced. -/
theorem replacement_mem_of_ofBytes? (h : ofBytes? bytes = none) :
    replacement ∈ (ofBytes bytes).toList := by
  rw [ofBytes, String.toList_ofList]
  exact List.mem_map.2 ⟨none, none_mem_of_mapM_id (Option.map_eq_none_iff.1 h), rfl⟩

end SourceSurvey.Text
