import Mathlib.Data.List.Basic

/-!
Decimal numerals, and how much of a text a reader takes that goes on as long as characters are of
some kind.
-/

namespace SourceSurvey.Text

variable {α : Type} {p : α → Bool}

/-- Nothing of the kind is at the beginning, so that a reader of that kind stops here. -/
def Stops (p : α → Bool) (rest : List α) : Prop := ∀ x ∈ rest.head?, p x = false

@[simp]
theorem stops_nil : Stops p [] := by
  intro x hx
  cases hx

@[simp]
theorem stops_cons {x : α} {rest : List α} : Stops p (x :: rest) ↔ p x = false := by
  simp [Stops]

theorem Stops.take {rest : List α} (h : Stops p rest) (count : Nat) :
    Stops p (rest.take count) := by
  cases rest with
  | nil => simp
  | cons x rest =>
      cases count with
      | zero => simp
      | succ count => exact stops_cons.2 (stops_cons.1 h)

/-- Reading goes on to where the text stops. -/
theorem takeWhile_append_of_stops {xs rest : List α} (hAll : ∀ x ∈ xs, p x = true)
    (hStops : Stops p rest) : (xs ++ rest).takeWhile p = xs := by
  rw [List.takeWhile_append_of_pos hAll]
  cases rest with
  | nil => simp
  | cons x rest => simp [stops_cons.1 hStops]

/-- What is left is what follows that place. -/
theorem dropWhile_append_of_stops {xs rest : List α} (hAll : ∀ x ∈ xs, p x = true)
    (hStops : Stops p rest) : (xs ++ rest).dropWhile p = rest := by
  rw [List.dropWhile_append_of_pos hAll]
  cases rest with
  | nil => simp
  | cons x rest => simp [stops_cons.1 hStops]

/-- Digits that stand for a number, with or without zeros at the beginning. -/
structure Numeral (digits : List Char) (n : Nat) : Prop where
  digit : ∀ c ∈ digits, c.isDigit = true
  nonempty : digits ≠ []
  value : Nat.ofDigitChars 10 digits 0 = n

theorem isDigit_of_mem_decimal {n : Nat} {c : Char} (h : c ∈ Nat.toDigits 10 n) :
    c.isDigit = true :=
  Nat.isDigit_of_mem_toDigits (by decide) (by decide) h

/-- Decimal digits are a numeral of their number. -/
theorem numeral_decimal (n : Nat) : Numeral (Nat.toDigits 10 n) n :=
  ⟨fun _ => isDigit_of_mem_decimal, Nat.toDigits_ne_nil, Nat.ofDigitChars_ten_toDigits⟩

/-- Zeros in front do not change a number. -/
theorem Numeral.replicate_zero_append {digits : List Char} {n : Nat} (h : Numeral digits n)
    (count : Nat) : Numeral (List.replicate count '0' ++ digits) n where
  digit := by
    intro c hc
    rcases List.mem_append.1 hc with hc | hc
    · rw [List.eq_of_mem_replicate hc]
      rfl
    · exact h.digit c hc
  nonempty := by simp [h.nonempty]
  value := by
    rw [Nat.ofDigitChars_append, Nat.ofDigitChars_replicate_zero, Nat.mul_zero]
    exact h.value

/-- Numbers are printed without zeros at the beginning. -/
theorem head?_decimal_ne_zero (n : Nat) (h : 0 < n) : (Nat.toDigits 10 n).head? ≠ some '0' := by
  have hDigit : ∀ d < 10, 0 < d → Nat.digitChar d ≠ '0' := by decide
  induction n using Nat.strongRecOn with
  | ind n ih =>
      by_cases hSmall : n < 10
      · rw [Nat.toDigits_of_lt_base hSmall, List.head?_cons, ne_eq, Option.some.injEq]
        exact hDigit n hSmall h
      · rw [Nat.toDigits_of_base_le (by decide) (by omega),
          List.head?_append_of_ne_nil _ Nat.toDigits_ne_nil]
        exact ih (n / 10) (by omega) (by omega)

/-- Reading digits from the left, with those before them read as `start`. -/
theorem foldl_digits (digits : List Char) (start : Nat) :
    digits.foldl (fun n c => n * 10 + (c.toNat - '0'.toNat)) start =
      Nat.ofDigitChars 10 digits start := by
  rw [Nat.ofDigitChars_eq_foldl]
  simp only [Nat.mul_comm 10]

end SourceSurvey.Text
