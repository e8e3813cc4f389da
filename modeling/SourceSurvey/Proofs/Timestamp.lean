import SourceSurvey.Proofs.Except
import SourceSurvey.Proofs.Text.Numeral
import SourceSurvey.Timestamp
import Mathlib.Algebra.Group.Nat.Defs

/-!
A moment is read back from its text: all years with their signs, the leap second that a minute may
have, and fractions of every length. Where a fraction reaches into a second that is no leap second,
the text shows the second after, and that is what is read back.
-/

namespace SourceSurvey.Timestamp

open SourceSurvey.Text (Numeral Stops)

theorem toList_padded (width n : Nat) : (padded width n).toList =
    List.replicate (width - (Nat.toDigits 10 n).length) '0' ++ Nat.toDigits 10 n := by
  rw [padded, String.toList_ofList]

theorem numeral_padded (width n : Nat) : Numeral (padded width n).toList n := by
  rw [toList_padded]
  exact (Text.numeral_decimal n).replicate_zero_append _

/-- A number that has room is filled up to exactly the width. -/
theorem length_padded {width n : Nat} (hWidth : 0 < width) (hRoom : n < 10 ^ width) :
    (padded width n).toList.length = width := by
  have hLength := (Nat.length_toDigits_le_iff (by decide) hWidth).2 hRoom
  rw [toList_padded, List.length_append, List.length_replicate]
  omega

section Digits

theorem isBlank_of_isDigit {c : Char} (h : c.isDigit = true) : Text.isBlank c = false := by
  have hOther : ∀ d : Char, d.isDigit = false → c ≠ d := by
    intro d hD hEq
    rw [hEq, hD] at h
    cases h
  have hBounds : 48 ≤ c.toNat ∧ c.toNat ≤ 57 := by
    simpa [Char.isDigit, UInt32.le_iff_toNat_le] using h
  have hLow : ¬c ≤ '\r' := by
    intro hLe
    have : c.toNat ≤ 13 := hLe
    omega
  have hHigh : ¬ '\u2000' ≤ c := by
    intro hLe
    have : 8192 ≤ c.toNat := hLe
    omega
  simp [Text.isBlank, hLow, hHigh, hOther _ (show ' '.isDigit = false by decide),
    hOther _ (show '\u0085'.isDigit = false by decide),
    hOther _ (show '\u00a0'.isDigit = false by decide),
    hOther _ (show '\u1680'.isDigit = false by decide),
    hOther _ (show '\u2028'.isDigit = false by decide),
    hOther _ (show '\u2029'.isDigit = false by decide),
    hOther _ (show '\u202f'.isDigit = false by decide),
    hOther _ (show '\u205f'.isDigit = false by decide),
    hOther _ (show '\u3000'.isDigit = false by decide)]

theorem skipBlanks_of_stops {cs : List Char} (h : Stops Text.isBlank cs) :
    Parser.skipBlanks cs = cs := by
  cases cs with
  | nil => rfl
  | cons c cs => simp [Parser.skipBlanks, Text.stops_cons.1 h]

variable {digits rest : List Char} {n width : Nat}

theorem skipBlanks_numeral (h : Numeral digits n) (rest : List Char) :
    Parser.skipBlanks (digits ++ rest) = digits ++ rest := by
  obtain ⟨c, tail, rfl⟩ := List.exists_cons_of_ne_nil h.nonempty
  exact skipBlanks_of_stops (Text.stops_cons.2 (isBlank_of_isDigit (h.digit c List.mem_cons_self)))

/-- Digits are read up to the width or to the first character that is none. -/
theorem digits_numeral (h : Numeral digits n) (hFits : n < Nat.pow 2 63)
    (hWidth : digits.length ≤ width)
    (hRest : width = digits.length ∨ Stops Parser.isDigit rest) :
    Parser.digits width (digits ++ rest) = .ok (n, rest) := by
  have hTake : ((digits ++ rest).take width).takeWhile Parser.isDigit = digits := by
    rw [List.take_append, List.take_of_length_le hWidth]
    apply Text.takeWhile_append_of_stops h.digit
    rcases hRest with hFull | hStops
    · simp [hFull]
    · exact hStops.take _
  have hValue : digits.foldl (fun n c => n * 10 + Parser.digitValue c) 0 = n :=
    (Text.foldl_digits digits 0).trans h.value
  simp only [Parser.digits, hTake, hValue, if_neg (Nat.not_le.2 hFits), List.drop_left]
  obtain ⟨c, tail, rfl⟩ := List.exists_cons_of_ne_nil h.nonempty
  rfl

/-- As many digits are read as there is room for, whatever follows them. -/
theorem digits_padded (hWidth : 0 < width) (hRoom : n < 10 ^ width) (hFits : n < Nat.pow 2 63) :
    Parser.digits width ((padded width n).toList ++ rest) = .ok (n, rest) := by
  have hLength := length_padded hWidth hRoom
  exact digits_numeral (numeral_padded width n) hFits (Nat.le_of_eq hLength) (.inl hLength.symm)

/-- Two digits are read as the number that was padded to them. -/
theorem numberWithin_padded {least greatest : Nat} (hLeast : least ≤ n) (hGreatest : n ≤ greatest)
    (hRoom : n < 100) :
    Parser.numberWithin least greatest ((padded 2 n).toList ++ rest) = .ok (n, rest) := by
  have hFits : n < Nat.pow 2 63 := Nat.lt_of_lt_of_le hRoom (by decide)
  rw [Parser.numberWithin, skipBlanks_numeral (numeral_padded 2 n),
    digits_padded (by decide) hRoom hFits]
  simp [bind, Except.bind, hLeast, hGreatest]
  rfl

theorem separator_cons {c : Char} (hBlank : Text.isBlank c = false) (rest : List Char) :
    Parser.separator c (c :: rest) = .ok ((), rest) := by
  simp [Parser.separator, skipBlanks_of_stops (Text.stops_cons.2 hBlank)]

end Digits

section Years

variable {cs rest behind : List Char} {n : Nat} {year : Int}

/-- What a machine holds as a year. -/
def FitsYear (year : Int) : Prop :=
  -(Nat.pow 2 31 : Int) ≤ year ∧ year < (Nat.pow 2 31 : Int)

theorem signedYear_of_minus (hSign : Parser.skipBlanks cs = '-' :: rest)
    (hDigits : Parser.digits rest.length rest = .ok (n, behind)) (hYear : -Int.ofNat n = year)
    (hFits : FitsYear year) : Parser.signedYear cs = .ok (year, behind) := by
  simp only [Parser.signedYear, hSign]
  refine Except.bind_eq_ok_iff.2 ⟨_, hDigits, ?_⟩
  refine Except.bind_eq_ok_iff.2 ⟨(year, behind), ?_, if_pos hFits⟩
  rw [← hYear]
  rfl

theorem signedYear_of_plus (hSign : Parser.skipBlanks cs = '+' :: rest)
    (hDigits : Parser.digits rest.length rest = .ok (n, behind)) (hYear : Int.ofNat n = year)
    (hFits : FitsYear year) : Parser.signedYear cs = .ok (year, behind) := by
  simp only [Parser.signedYear, hSign]
  refine Except.bind_eq_ok_iff.2 ⟨_, hDigits, ?_⟩
  refine Except.bind_eq_ok_iff.2 ⟨(year, behind), ?_, if_pos hFits⟩
  rw [← hYear]
  rfl

/-- A year without a sign ends behind its fourth digit. -/
theorem signedYear_of_digit {c : Char} (hPlain : Parser.skipBlanks cs = c :: rest)
    (hDigit : c.isDigit = true) (hDigits : Parser.digits 4 (c :: rest) = .ok (n, behind))
    (hYear : Int.ofNat n = year) (hFits : FitsYear year) :
    Parser.signedYear cs = .ok (year, behind) := by
  simp only [Parser.signedYear, hPlain]
  split
  · rename_i hSign
    cases hSign
    cases hDigit
  · rename_i hSign
    cases hSign
    cases hDigit
  · refine Except.bind_eq_ok_iff.2 ⟨_, hDigits, ?_⟩
    refine Except.bind_eq_ok_iff.2 ⟨(year, behind), ?_, if_pos hFits⟩
    rw [← hYear]
    rfl

/-- The year is read with its sign, which it has unless it has four digits. -/
theorem signedYear_yearText (hLeast : -262143 ≤ year) (hGreatest : year ≤ 262142)
    (rest : List Char) :
    Parser.signedYear ((yearText year).toList ++ '-' :: rest) = .ok (year, '-' :: rest) := by
  have hYear : FitsYear year := by
    have : Nat.pow 2 31 = 2147483648 := by decide
    unfold FitsYear
    omega
  have hFits : year.natAbs < Nat.pow 2 63 :=
    Nat.lt_of_le_of_lt (show year.natAbs ≤ 262143 by omega) (by decide)
  by_cases hPlain : 0 ≤ year ∧ year ≤ 9999
  · rw [yearText, if_pos hPlain]
    have hDigits : Parser.digits 4 ((padded 4 year.toNat).toList ++ '-' :: rest) =
        .ok (year.toNat, '-' :: rest) :=
      digits_padded (by decide) (by omega) (by omega)
    have hNumeral := numeral_padded 4 year.toNat
    have hSkip := skipBlanks_numeral hNumeral ('-' :: rest)
    obtain ⟨c, tail, hCons⟩ := List.exists_cons_of_ne_nil hNumeral.nonempty
    have hDigit : c.isDigit = true := hNumeral.digit c (hCons ▸ List.mem_cons_self)
    rw [hCons] at hSkip hDigits ⊢
    exact signedYear_of_digit hSkip hDigit hDigits (Int.toNat_of_nonneg hPlain.1) hYear
  · rw [yearText, if_neg hPlain, String.toList_append]
    have hDigits : Parser.digits ((padded 4 year.natAbs).toList ++ '-' :: rest).length
        ((padded 4 year.natAbs).toList ++ '-' :: rest) = .ok (year.natAbs, '-' :: rest) :=
      digits_numeral (numeral_padded 4 year.natAbs) hFits (by simp)
        (.inr (Text.stops_cons.2 rfl))
    by_cases hNegative : year < 0
    · rw [if_pos hNegative]
      exact signedYear_of_minus rfl hDigits (by rw [Int.ofNat_eq_natCast]; omega) hYear
    · rw [if_neg hNegative]
      exact signedYear_of_plus rfl hDigits (by rw [Int.ofNat_eq_natCast]; omega) hYear

end Years

/-- A fraction is read by its digits, and counted in nanoseconds. -/
theorem fraction_padded {width n : Nat} (hWidth : 0 < width) (hNine : width ≤ 9)
    (hRoom : n < 10 ^ width) (rest : List Char) :
    Parser.fraction ('.' :: ((padded width n).toList ++ 'Z' :: rest)) =
      .ok (n * Nat.pow 10 (9 - width), 'Z' :: rest) := by
  have hLength := length_padded hWidth hRoom
  have hFits : n < Nat.pow 2 63 :=
    Nat.lt_of_lt_of_le hRoom (Nat.le_trans (Nat.pow_le_pow_right (by decide) hNine) (by decide))
  have hDigits : Parser.digits 9 ((padded width n).toList ++ 'Z' :: rest) =
      .ok (n, 'Z' :: rest) :=
    digits_numeral (numeral_padded width n) hFits (by omega) (.inr (Text.stops_cons.2 rfl))
  have hTaken : ((padded width n).toList ++ 'Z' :: rest).length - ('Z' :: rest).length = width := by
    rw [List.length_append, hLength]
    omega
  simp only [Parser.fraction, hDigits, bind, Except.bind, hTaken]
  rfl

/-- A fraction is read back, however many digits it is written with. -/
theorem fraction_fractionText {nanos : Nat} (h : nanos < nanosPerSecond) (rest : List Char) :
    Parser.fraction ((fractionText nanos).toList ++ 'Z' :: rest) = .ok (nanos, 'Z' :: rest) := by
  have hPoint : ∀ s : String, ("." ++ s).toList = '.' :: s.toList := by
    intro s
    rw [String.toList_append]
    rfl
  unfold nanosPerSecond at h
  unfold fractionText
  split
  · subst nanos
    rfl
  split
  · rename_i hMillis
    rw [hPoint, List.cons_append, fraction_padded (by decide) (by decide) (by omega)]
    exact congrArg (fun n => Except.ok (n, _))
      (Nat.div_mul_cancel (Nat.dvd_of_mod_eq_zero hMillis))
  split
  · rename_i hMicros
    rw [hPoint, List.cons_append, fraction_padded (by decide) (by decide) (by omega)]
    exact congrArg (fun n => Except.ok (n, _))
      (Nat.div_mul_cancel (Nat.dvd_of_mod_eq_zero hMicros))
  · rw [hPoint, List.cons_append, fraction_padded (by decide) (by decide) (by omega)]
    simp

theorem offset_zulu : Parser.offset ['Z'] = .ok (0, []) := by
  have hZone : (String.ofList ['Z']).map Char.toUpper ≠ "UTC" := by
    intro h
    have := congrArg String.toList h
    simp at this
  simp [Parser.offset, hZone]
  rfl

/-- A month that has days is one of the twelve, and none has more than 31. -/
theorem month_bounds {year : Int} {month day : Nat} (hFirst : 1 ≤ day)
    (hLast : day ≤ monthLength year month) : 1 ≤ month ∧ month ≤ 12 ∧ day ≤ 31 := by
  unfold monthLength at hLast
  split at hLast
  · omega
  · by_cases hMonth : month ≤ 12
    · have hLe : ∀ length ∈ monthLengths year, length ≤ 31 := by
        simp only [monthLengths, List.mem_cons, List.not_mem_nil, or_false]
        intro length hLength
        split at hLength <;> omega
      have hMonth : month - 1 < (monthLengths year).length := by
        simp only [monthLengths, List.length_cons, List.length_nil]
        omega
      have hMem := List.getElem_mem hMonth
      rw [List.getD_eq_getElem?_getD, List.getElem?_eq_getElem hMonth] at hLast
      have := hLe _ hMem
      simp only [Option.getD_some] at hLast
      omega
    · rw [List.getD_eq_getElem?_getD,
        List.getElem?_eq_none (by simp [monthLengths]; omega)] at hLast
      simp only [Option.getD_none] at hLast
      omega

section Carrying

/-- The timestamp with the second that its fraction holds, if it holds one, counted among the
seconds. A leap second stays as it is. -/
def carried (t : Timestamp) : Timestamp where
  __ := t
  second := if t.IsProper then t.second else t.second + 1
  nanos := if t.IsProper then t.nanos else t.nanos - nanosPerSecond
  valid := by
    obtain ⟨hLeast, hGreatest, hFirst, hLast, hHour, hMinute, hSecond, hNanos⟩ := t.valid
    split
    · exact t.valid
    · rename_i hImproper
      obtain ⟨hLong, hEarly⟩ := not_or.1 hImproper
      have hUnit : nanosPerSecond = 1000000000 := rfl
      exact ⟨hLeast, hGreatest, hFirst, hLast, hHour, hMinute, by omega, by omega⟩

variable {t : Timestamp}

theorem carried_of_isProper (h : t.IsProper) : t.carried = t := by
  simp [carried, h]

/-- What a text carries can be read back. -/
theorem isProper_carried (t : Timestamp) : t.carried.IsProper := by
  by_cases h : t.IsProper
  · rwa [carried_of_isProper h]
  · obtain ⟨_, _, _, _, _, _, _, hNanos⟩ := t.valid
    have hLong := (not_or.1 h).1
    refine .inl ?_
    simp only [carried, if_neg h]
    omega

/-- Only proper timestamps are left as they are. -/
theorem carried_eq_self_iff : t.carried = t ↔ t.IsProper := by
  refine ⟨fun h => ?_, carried_of_isProper⟩
  rw [← h]
  exact isProper_carried t

/-- What a carried timestamp shows as seconds and fraction is what the timestamp itself shows. -/
theorem shown_carried (t : Timestamp) :
    t.carried.second + t.carried.nanos / nanosPerSecond = t.second + t.nanos / nanosPerSecond ∧
      t.carried.nanos % nanosPerSecond = t.nanos % nanosPerSecond := by
  by_cases h : t.IsProper
  · simp [carried_of_isProper h]
  · have hLong := (not_or.1 h).1
    simp only [carried, if_neg h]
    unfold nanosPerSecond at *
    omega

/-- A timestamp and the carried one have the same text. -/
theorem text_carried (t : Timestamp) : t.carried.text = t.text := by
  obtain ⟨hSecond, hNanos⟩ := shown_carried t
  simp only [text, textWith, hSecond, hNanos]
  rfl

/-- The seconds and the fraction that a proper timestamp shows are taken for its own. -/
theorem withoutLeap_of_isProper (h : t.IsProper) :
    withoutLeap (t.second + t.nanos / nanosPerSecond) (t.nanos % nanosPerSecond) =
      (t.second, t.nanos) := by
  obtain ⟨_, _, _, _, _, _, hSecond, hNanos⟩ := t.valid
  by_cases hFraction : t.nanos < nanosPerSecond
  · have hPlain : t.second + 0 ≠ 60 := by omega
    rw [Nat.div_eq_of_lt hFraction, Nat.mod_eq_of_lt hFraction, withoutLeap, if_neg hPlain,
      Nat.add_zero]
  · have hLeap : t.second = 59 := h.resolve_left hFraction
    have hQuotient : t.nanos / nanosPerSecond = 1 := by
      unfold nanosPerSecond at *
      omega
    rw [hQuotient, hLeap, withoutLeap, if_pos rfl]
    refine congrArg (Prod.mk 59) ?_
    unfold nanosPerSecond at *
    omega

/-- A proper moment can be built again from its fields. -/
theorem ofFields?_of_isProper (h : t.IsProper) :
    ofFields? t.year t.month t.day t.hour t.minute t.second t.nanos = some t :=
  (dif_pos t.valid).trans (if_pos h)

theorem isProper_of_ofFields? {year : Int} {month day hour minute second nanos : Nat}
    (h : ofFields? year month day hour minute second nanos = some t) : t.IsProper := by
  rw [ofFields?] at h
  split at h
  · dsimp only at h
    split at h
    · rename_i hProper
      cases h
      exact hProper
    · cases h
  · cases h

theorem isProper_of_ofMinutes? {minutes : Int} {second nanos : Nat}
    (h : ofMinutes? minutes second nanos = some t) : t.IsProper :=
  isProper_of_ofFields? h

/-- A moment is still proper when it is moved to the zone of the text. -/
theorem isProper_of_atGreenwich {here : Timestamp} {offset : Int} (hHere : here.IsProper)
    (h : here.atGreenwich offset = .ok t) : t.IsProper := by
  rw [atGreenwich] at h
  split at h
  · cases h
    exact hHere
  split at h
  · cases h
  · dsimp only at h
    split at h
    · rename_i hMinutes
      cases h
      exact isProper_of_ofMinutes? hMinutes
    · cases h

/-- Whatever is read is proper. -/
theorem Parsed.isProper_of_timestamp {p : Parsed} (h : p.timestamp = .ok t) : t.IsProper := by
  rw [Parsed.timestamp] at h
  split at h
  · rename_i hFields
    exact isProper_of_atGreenwich (isProper_of_ofFields? hFields) h
  · cases h

/-- Only proper timestamps are ever read. -/
theorem isProper_of_parse {s : String} (h : parse s = .ok t) : t.IsProper := by
  obtain ⟨p, -, hTimestamp⟩ := Except.bind_eq_ok_iff.1 h
  exact Parsed.isProper_of_timestamp hTimestamp

/-- The parts that a proper timestamp shows are put together to it again. -/
theorem Parsed.timestamp_of_isProper (h : t.IsProper) :
    Parsed.timestamp ⟨t.year, t.month, t.day, t.hour, t.minute, t.second + t.nanos / nanosPerSecond,
      t.nanos % nanosPerSecond, 0⟩ = .ok t := by
  simp [Parsed.timestamp, withoutLeap_of_isProper h, ofFields?_of_isProper h, atGreenwich]

end Carrying

/-- The text of a timestamp shows its parts, with a second that the fraction holds added to the
seconds. -/
theorem readParts_text (t : Timestamp) : readParts t.text = .ok
    ⟨t.year, t.month, t.day, t.hour, t.minute, t.second + t.nanos / nanosPerSecond,
      t.nanos % nanosPerSecond, 0⟩ := by
  obtain ⟨hLeast, hGreatest, hFirst, hLast, hHour, hMinute, hSecond, hNanos⟩ := t.valid
  obtain ⟨hJanuary, hDecember, hDay⟩ := month_bounds hFirst hLast
  have hShown : t.second + t.nanos / nanosPerSecond ≤ 60 := by
    unfold nanosPerSecond at *
    omega
  have hFraction : t.nanos % nanosPerSecond < nanosPerSecond := Nat.mod_lt _ (by decide)
  have hText : t.text.toList =
      (yearText t.year).toList ++ '-' :: ((padded 2 t.month).toList ++
        '-' :: ((padded 2 t.day).toList ++ 'T' :: ((padded 2 t.hour).toList ++
          ':' :: ((padded 2 t.minute).toList ++
            ':' :: ((padded 2 (t.second + t.nanos / nanosPerSecond)).toList ++
              ((fractionText (t.nanos % nanosPerSecond)).toList ++ ['Z'])))))) := by
    simp [text, textWith]
  have hDash (rest : List Char) := separator_cons (c := '-') (by decide) rest
  have hColon (rest : List Char) := separator_cons (c := ':') (by decide) rest
  have hZone : Parser.offset (Parser.skipBlanks ['Z']) = .ok (0, []) := offset_zulu
  rw [readParts, hText]
  refine Except.bind_eq_ok_iff.2 ⟨_, signedYear_yearText hLeast hGreatest _, ?_⟩
  refine Except.bind_eq_ok_iff.2 ⟨_, hDash _, ?_⟩
  refine Except.bind_eq_ok_iff.2 ⟨_, numberWithin_padded hJanuary hDecember (by omega), ?_⟩
  refine Except.bind_eq_ok_iff.2 ⟨_, hDash _, ?_⟩
  refine Except.bind_eq_ok_iff.2 ⟨_, numberWithin_padded hFirst hDay (by omega), ?_⟩
  refine (if_pos (.inl rfl)).trans ?_
  refine Except.bind_eq_ok_iff.2 ⟨_, rfl, ?_⟩
  refine Except.bind_eq_ok_iff.2 ⟨_, numberWithin_padded (Nat.zero_le _) (by omega) (by omega), ?_⟩
  refine Except.bind_eq_ok_iff.2 ⟨_, hColon _, ?_⟩
  refine Except.bind_eq_ok_iff.2 ⟨_, numberWithin_padded (Nat.zero_le _) (by omega) (by omega), ?_⟩
  refine Except.bind_eq_ok_iff.2 ⟨_, hColon _, ?_⟩
  refine Except.bind_eq_ok_iff.2 ⟨_, numberWithin_padded (Nat.zero_le _) hShown (by omega), ?_⟩
  refine Except.bind_eq_ok_iff.2 ⟨_, fraction_fractionText hFraction [], ?_⟩
  refine Except.bind_eq_ok_iff.2 ⟨_, hZone, ?_⟩
  rfl

theorem parse_text_of_isProper {t : Timestamp} (h : t.IsProper) : parse t.text = .ok t :=
  Except.bind_eq_ok_iff.2 ⟨_, readParts_text t, Parsed.timestamp_of_isProper h⟩

end SourceSurvey.Timestamp
