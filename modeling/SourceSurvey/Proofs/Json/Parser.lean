import SourceSurvey.Proofs.Json.Layout
import SourceSurvey.Proofs.Text.Numeral

/-!
What has been written is read back, in every layout, if its numbers are natural numbers of a word.
-/

namespace SourceSurvey.Json

open Json.Parser

mutual

/-- Values without numbers that reading might round, and without errors. -/
def Readable : Json → Prop
  | int n => 0 ≤ n ∧ n < wordLimit
  | float _ | broken _ => False
  | arr items => ReadableItems items
  | obj members => ReadableMembers members
  | null | bool _ | str _ => True

def ReadableItems : List Json → Prop
  | [] => True
  | j :: rest => j.Readable ∧ ReadableItems rest

def ReadableMembers : List (String × Json) → Prop
  | [] => True
  | (_, j) :: rest => j.Readable ∧ ReadableMembers rest

end

theorem readableItems_iff {items : List Json} : ReadableItems items ↔ ∀ j ∈ items, j.Readable := by
  induction items with
  | nil => simp [ReadableItems]
  | cons j rest ih => simp [ReadableItems, ih]

theorem readableMembers_iff {members : List (String × Json)} :
    ReadableMembers members ↔ ∀ m ∈ members, m.2.Readable := by
  induction members with
  | nil => simp [ReadableMembers]
  | cons m rest ih =>
      obtain ⟨key, j⟩ := m
      simp [ReadableMembers, ih]

section Strings

theorem hexNumber?_hexDigits :
    ∀ n < 32, Text.hexNumber? ['0', '0', hexDigit (n / 16), hexDigit (n % 16)] = some n := by
  decide

theorem codeUnits_control {c : Char} (hControl : c.toNat < 32) (rest : List Char) :
    codeUnits ('0' :: '0' :: hexDigit (c.toNat / 16) :: hexDigit (c.toNat % 16) :: rest) =
      .ok (c, rest) := by
  have hDigits : fourDigits ('0' :: '0' :: hexDigit (c.toNat / 16) :: hexDigit (c.toNat % 16) ::
      rest) = .ok (c.toNat, rest) := by
    simp [fourDigits, hexNumber?_hexDigits _ hControl]
  have hLow : ¬(0xDC00 ≤ c.toNat ∧ c.toNat ≤ 0xDFFF) := by omega
  have hHigh : ¬(0xD800 ≤ c.toNat ∧ c.toNat ≤ 0xDBFF) := by omega
  simp only [codeUnits, hDigits, bind, Except.bind, if_neg hLow, if_neg hHigh, Char.ofNat_toNat]
  rfl

/-- Escaped or not, each character is read as itself. -/
theorem stringBody_escapedChar (acc : List Char) (fuel : Nat) (c : Char) (rest : List Char) :
    stringBody acc (fuel + 1) (escapedChar c ++ rest) = stringBody (c :: acc) fuel rest := by
  unfold escapedChar
  split
  · subst c; rfl
  split
  · subst c; rfl
  split
  · subst c; rfl
  split
  · subst c; rfl
  split
  · subst c; rfl
  split
  · subst c; rfl
  split
  · subst c; rfl
  split
  · rename_i hControl
    simp [stringBody, escapeSequence, codeUnits_control hControl, bind, Except.bind]
  · rename_i hQuote hBackslash _ _ _ _ _ hControl
    simp [stringBody, hQuote, hBackslash, hControl]

theorem length_le_length_escaped (cs : List Char) :
    cs.length ≤ (cs.flatMap escapedChar).length := by
  have hOne : ∀ c : Char, 1 ≤ (escapedChar c).length := by
    intro c
    unfold escapedChar
    repeat' split
    all_goals exact Nat.succ_le_succ (Nat.zero_le _)
  induction cs with
  | nil => simp
  | cons c cs ih =>
      have := hOne c
      simp only [List.flatMap_cons, List.length_append, List.length_cons]
      omega

/-- By induction over the characters: each is read as itself, until the closing quote is met. -/
theorem stringBody_escaped (cs acc : List Char) (fuel : Nat) (rest : List Char)
    (hFuel : cs.length < fuel) :
    stringBody acc fuel (cs.flatMap escapedChar ++ '"' :: rest) =
      .ok (String.ofList (acc.reverse ++ cs), rest) := by
  induction cs generalizing acc fuel with
  | nil =>
      obtain ⟨fuel, rfl⟩ := Nat.exists_eq_add_of_lt hFuel
      simp [stringBody]
  | cons c cs ih =>
      obtain ⟨fuel, rfl⟩ : ∃ more, fuel = more + 1 := ⟨fuel - 1, by omega⟩
      rw [List.flatMap_cons, List.append_assoc, stringBody_escapedChar,
        ih (c :: acc) fuel (by simpa using hFuel)]
      simp

/-- A string is read back, whatever characters it has. -/
theorem string_escaped (s : String) (rest : List Char) :
    string (s.toList.flatMap escapedChar ++ '"' :: rest) = .ok (s, rest) := by
  have hLength := length_le_length_escaped s.toList
  rw [string, stringBody_escaped]
  · simp
  · simp only [List.length_append, List.length_cons]
    omega

end Strings

section Numbers

/-- The text does not go on with a part of a number. -/
def NumberEnds (rest : List Char) : Prop :=
  Text.Stops (fun c => isDigit c || c = '.' || c = 'e' || c = 'E') rest

/-- As long as they fit into a word, digits before the point add up to the number they stand for. -/
theorem wholeDigits_eq (digits : List Char) (start : Nat)
    (hFits : Nat.ofDigitChars 10 digits start < wordLimit) :
    wholeDigits ⟨start, 0⟩ false digits = (⟨Nat.ofDigitChars 10 digits start, 0⟩, false) := by
  induction digits generalizing start with
  | nil => rfl
  | cons c digits ih =>
      have hNext : 10 * start + (c.toNat - '0'.toNat) = start * 10 + digitValue c := by
        rw [Nat.mul_comm]
        rfl
      rw [Nat.ofDigitChars_cons, hNext] at hFits ⊢
      have hRoom : ¬wordLimit ≤ start * 10 + digitValue c := by
        have hGrows : start * 10 + digitValue c ≤
            Nat.ofDigitChars 10 digits (start * 10 + digitValue c) := by
          rw [Nat.ofDigitChars_eq_ofDigitChars_zero]
          exact Nat.le_add_right_of_le (Nat.le_mul_of_pos_left _ (Nat.pow_pos (by decide)))
        omega
      simp only [wholeDigits, Bool.false_or, decide_eq_true_eq, if_neg hRoom]
      exact ih _ hFits

/-- Only zero itself begins with a zero. -/
theorem decimal_ne_zero_cons (n : Nat) (c : Char) (cs : List Char) :
    Nat.toDigits 10 n ≠ '0' :: c :: cs := by
  intro h
  by_cases hZero : n = 0
  · subst hZero
    cases h
  · exact Text.head?_decimal_ne_zero n (by omega) (by rw [h]; rfl)

/-- A number that fits is read back. What follows must not be taken for a part of it. -/
theorem number_decimal {n : Nat} (hFits : n < wordLimit) {rest : List Char}
    (hRest : NumberEnds rest) :
    number false (Nat.toDigits 10 n ++ rest) = .ok (.int n, rest) := by
  have hStops : Text.Stops isDigit rest := by
    intro c hc
    have h := hRest c hc
    simp only [Bool.or_eq_false_iff] at h
    exact h.1.1.1
  have hAll : ∀ c ∈ Nat.toDigits 10 n, isDigit c = true := fun _ => Text.isDigit_of_mem_decimal
  have hWhole : wholeDigits ⟨0, 0⟩ false (Nat.toDigits 10 n) = (⟨n, 0⟩, false) := by
    rw [wholeDigits_eq _ _ (by rwa [Nat.ofDigitChars_ten_toDigits]),
      Nat.ofDigitChars_ten_toDigits]
  simp only [number, Text.takeWhile_append_of_stops hAll hStops,
    Text.dropWhile_append_of_stops hAll hStops]
  generalize (if (Nat.toDigits 10 n ++ rest).isEmpty then SyntaxError.endInValue
    else .invalidNumber) = e
  split
  · rename_i hNil
    exact absurd hNil Nat.toDigits_ne_nil
  · rename_i hZero
    exact absurd hZero (decimal_ne_zero_cons n _ _)
  · rw [hWhole]
    cases rest with
    | nil => rfl
    | cons c rest =>
        simp only [NumberEnds, Text.stops_cons, Bool.or_eq_false_iff, decide_eq_false_iff_not]
          at hRest
        obtain ⟨⟨⟨_, hPoint⟩, hLower⟩, hUpper⟩ := hRest
        simp [hPoint, hLower, hUpper, pure, Except.pure, bind, Except.bind, integer]

end Numbers

section Steps

variable {fuel : Nat} {cs text rest : List Char} {j : Json}

/-- The text goes on with a character that no reader takes for a blank or a separator. -/
def BeginsValue (text : List Char) : Prop :=
  ∃ c tail, text = c :: tail ∧ isSpace c = false ∧ c ≠ ']' ∧ c ≠ ','

theorem skip_cons {c : Char} (hSpace : isSpace c = false) (cs : List Char) :
    skip (c :: cs) = c :: cs := by
  simp [skip, hSpace]

theorem skip_of_beginsValue (h : BeginsValue text) : skip text = text := by
  obtain ⟨c, tail, rfl, hSpace, _⟩ := h
  exact skip_cons hSpace tail

theorem items_end (acc : List Json) (hSkip : skip cs = ']' :: rest) :
    items acc (fuel + 1) cs = (.arr acc.reverse, some rest) := by
  simp only [items, hSkip]

/-- The first item of a list has no comma before it. -/
theorem items_first (hSkip : skip cs = text) (hBegins : BeginsValue text)
    (hValue : value fuel text = (j, some rest)) :
    items [] (fuel + 1) cs = items [j] fuel rest := by
  obtain ⟨c, tail, rfl, _, hClose, hComma⟩ := hBegins
  simp [items, hSkip, hClose, hComma, hValue]

/-- Every other item follows a comma. -/
theorem items_next {acc : List Json} (hAcc : acc ≠ []) {behind : List Char}
    (hComma : skip cs = ',' :: behind) (hSkip : skip behind = text) (hBegins : BeginsValue text)
    (hValue : value fuel text = (j, some rest)) :
    items acc (fuel + 1) cs = items (j :: acc) fuel rest := by
  obtain ⟨c, tail, rfl, _, hClose, _⟩ := hBegins
  simp [items, hAcc, hComma, hSkip, hClose, hValue]

theorem members_end (acc : List (String × Json)) (hSkip : skip cs = '\x7d' :: rest) :
    members acc (fuel + 1) cs = (.obj acc.reverse, some rest) := by
  simp only [members, hSkip]

/-- A member after its opening quote, up to what follows it. -/
def MemberRead (fuel : Nat) (cs : List Char) (key : String) (j : Json) (rest : List Char) : Prop :=
  ∃ colon behind, string cs = .ok (key, colon) ∧ skip colon = ':' :: behind ∧
    value fuel behind = (j, some rest)

theorem members_first {key : String} (hSkip : skip cs = '"' :: text)
    (hMember : MemberRead fuel text key j rest) :
    members [] (fuel + 1) cs = members [(key, j)] fuel rest := by
  obtain ⟨colon, behind, hKey, hColon, hValue⟩ := hMember
  simp [members, hSkip, hKey, hColon, hValue]

theorem members_next {acc : List (String × Json)} (hAcc : acc ≠ []) {key : String}
    {behind : List Char} (hComma : skip cs = ',' :: behind) (hSkip : skip behind = '"' :: text)
    (hMember : MemberRead fuel text key j rest) :
    members acc (fuel + 1) cs = members ((key, j) :: acc) fuel rest := by
  obtain ⟨colon, behind, hKey, hColon, hValue⟩ := hMember
  simp [members, hAcc, hComma, hSkip, hKey, hColon, hValue]

end Steps

section Layouts

variable (l : Layout)

/-- Blanks in a layout are skipped. -/
theorem skip_append {blanks cs : List Char} (hBlanks : ∀ c ∈ blanks, isSpace c = true) :
    skip (blanks ++ cs) = skip cs :=
  List.dropWhile_append_of_pos hBlanks

theorem skip_line_append (depth : Nat) (cs : List Char) : skip (l.line depth ++ cs) = skip cs :=
  skip_append (l.line_space depth)

theorem skip_colon_append (cs : List Char) : skip (l.colon ++ cs) = skip cs :=
  skip_append l.colon_space

theorem chars_ofNat (n depth : Nat) : (int n).chars l depth = Nat.toDigits 10 n := by
  change (toString n).toList = _
  rw [Nat.toString_eq_ofList_toDigits, String.toList_ofList]

/-- A numeral begins with a digit, which is no other character of the grammar. -/
theorem decimal_eq_cons (n : Nat) : ∃ c tail, Nat.toDigits 10 n = c :: tail ∧
    isDigit c = true ∧ ∀ d, isDigit d = false → c ≠ d := by
  obtain ⟨c, tail, hDigits⟩ := List.exists_cons_of_ne_nil (Nat.toDigits_ne_nil (b := 10) (n := n))
  have hDigit : isDigit c = true :=
    Text.isDigit_of_mem_decimal (n := n) (hDigits ▸ List.mem_cons_self)
  refine ⟨c, tail, hDigits, hDigit, ?_⟩
  intro d hD hEq
  rw [hEq, hD] at hDigit
  cases hDigit

theorem beginsValue_decimal (n : Nat) : BeginsValue (Nat.toDigits 10 n) := by
  obtain ⟨c, tail, hDigits, _, hOther⟩ := decimal_eq_cons n
  refine ⟨c, tail, hDigits, ?_, hOther ']' (by decide), hOther ',' (by decide)⟩
  simp [isSpace, hOther ' ' (by decide), hOther '\n' (by decide), hOther '\t' (by decide),
    hOther '\r' (by decide)]

theorem value_decimal {n : Nat} (hFits : n < wordLimit) {fuel : Nat} {cs rest : List Char}
    (hEnds : NumberEnds rest) (hSkip : skip cs = Nat.toDigits 10 n ++ rest) :
    value (fuel + 1) cs = (.int n, some rest) := by
  have hNumber := number_decimal hFits hEnds
  obtain ⟨c, tail, hDigits, hDigit, hOther⟩ := decimal_eq_cons n
  rw [hDigits, List.cons_append] at hSkip hNumber
  simp [value, hSkip, hDigit, hNumber, finish, hOther 'n' (by decide), hOther 't' (by decide),
    hOther 'f' (by decide), hOther '-' (by decide), hOther '"' (by decide),
    hOther '[' (by decide), hOther '\x7b' (by decide)]

/-- No value begins with a blank or with a mark of the list it is in. -/
theorem beginsValue_chars {j : Json} (h : j.Readable) (depth : Nat) :
    BeginsValue (j.chars l depth) := by
  cases j with
  | null => exact ⟨_, _, rfl, by decide⟩
  | bool b => cases b <;> exact ⟨_, _, rfl, by decide⟩
  | int n =>
      obtain ⟨n, rfl⟩ := Int.eq_ofNat_of_zero_le h.1
      rw [chars_ofNat]
      exact beginsValue_decimal n
  | float x => cases h
  | str s => exact ⟨_, _, rfl, by decide⟩
  | arr items => cases items <;> exact ⟨_, _, rfl, by decide⟩
  | obj members => cases members <;> exact ⟨_, _, rfl, by decide⟩
  | broken e => cases h

theorem beginsValue_chars_append {j : Json} (h : j.Readable) (depth : Nat) (rest : List Char) :
    BeginsValue (j.chars l depth ++ rest) := by
  obtain ⟨c, tail, hChars, hBegins⟩ := beginsValue_chars l h depth
  exact ⟨c, tail ++ rest, by rw [hChars, List.cons_append], hBegins⟩

/-- Blanks end a number, and where there are none what follows has to. -/
theorem numberEnds_append {blanks : List Char} (hBlanks : ∀ c ∈ blanks, isSpace c = true)
    {cs : List Char} (hEnds : NumberEnds cs) : NumberEnds (blanks ++ cs) := by
  cases blanks with
  | nil => exact hEnds
  | cons c blanks =>
      have hSpace := hBlanks c List.mem_cons_self
      simp only [isSpace, Bool.or_eq_true, decide_eq_true_eq] at hSpace
      rw [List.cons_append, NumberEnds, Text.stops_cons]
      rcases hSpace with ((rfl | rfl) | rfl) | rfl <;> decide

/-- Behind an item the list goes on with a comma, a blank or its bracket, so a number ends there. -/
theorem numberEnds_items (depth : Nat) (js : List Json) (rest : List Char) :
    NumberEnds (charsOfItems l depth js ++ (l.line depth ++ ']' :: rest)) := by
  cases js with
  | nil => exact numberEnds_append (l.line_space depth) (by simp [NumberEnds, isDigit])
  | cons j js => simp [charsOfItems, NumberEnds, isDigit]

theorem numberEnds_members (depth : Nat) (ms : List (String × Json)) (rest : List Char) :
    NumberEnds (charsOfMembers l depth ms ++ (l.line depth ++ '\x7d' :: rest)) := by
  cases ms with
  | nil => exact numberEnds_append (l.line_space depth) (by simp [NumberEnds, isDigit])
  | cons m ms => simp [charsOfMembers, NumberEnds, isDigit]

/-- A member after its opening quote, and what follows it. -/
def memberTail (depth : Nat) (key : String) (j : Json) (rest : List Char) : List Char :=
  key.toList.flatMap escapedChar ++ '"' :: ':' ::
    (l.colon ++ (j.chars l (depth + 1) ++ rest))

theorem memberRead_memberTail {fuel depth : Nat} {key : String} {j : Json} (h : j.Readable)
    {rest : List Char} (hValue : ∀ {cs}, skip cs = j.chars l (depth + 1) ++ rest →
      value fuel cs = (j, some rest)) :
    MemberRead fuel (memberTail l depth key j rest) key j rest := by
  have hBegins := beginsValue_chars_append l h (depth + 1) rest
  exact ⟨_, _, string_escaped key _, skip_cons (by decide) _,
    hValue ((skip_colon_append l _).trans (skip_of_beginsValue hBegins))⟩

mutual

/-- A written value is read back, and what follows it is left. -/
theorem value_chars {j : Json} (h : j.Readable) {depth fuel : Nat} {cs rest : List Char}
    (hEnds : NumberEnds rest) (hSkip : skip cs = j.chars l depth ++ rest)
    (hFuel : (j.chars l depth).length < fuel) : value fuel cs = (j, some rest) := by
  obtain ⟨fuel, rfl⟩ : ∃ more, fuel = more + 1 := ⟨fuel - 1, by omega⟩
  match j, h with
  | null, _ =>
      have hNull : skip cs = 'n' :: 'u' :: 'l' :: 'l' :: rest := hSkip
      simp only [value, hNull]
      rfl
  | bool true, _ =>
      have hTrue : skip cs = 't' :: 'r' :: 'u' :: 'e' :: rest := hSkip
      simp only [value, hTrue]
      rfl
  | bool false, _ =>
      have hFalse : skip cs = 'f' :: 'a' :: 'l' :: 's' :: 'e' :: rest := hSkip
      simp only [value, hFalse]
      rfl
  | int n, h =>
      obtain ⟨n, rfl⟩ := Int.eq_ofNat_of_zero_le h.1
      rw [chars_ofNat] at hSkip
      exact value_decimal (by exact_mod_cast h.2) hEnds hSkip
  | str s, _ =>
      have hString : skip cs = '"' :: (s.toList.flatMap escapedChar ++ '"' :: rest) := by
        rw [hSkip]
        change escapedText s ++ rest = _
        simp [escapedText]
      simp only [value, hString, string_escaped]
      rfl
  | arr [], _ =>
      have hList : skip cs = '[' :: ']' :: rest := hSkip
      have hRoom : 2 < fuel + 1 := hFuel
      obtain ⟨fuel, rfl⟩ : ∃ more, fuel = more + 1 := ⟨fuel - 1, by omega⟩
      simp only [value, hList]
      exact items_end [] (skip_cons (by decide) rest)
  | arr (j :: js), h =>
      have hList : skip cs = '[' :: (l.line (depth + 1) ++ (j.chars l (depth + 1) ++
          (charsOfItems l depth js ++ (l.line depth ++ ']' :: rest)))) := by
        rw [hSkip]
        simp [chars]
      simp only [chars, List.length_cons, List.length_append] at hFuel
      obtain ⟨fuel, rfl⟩ : ∃ more, fuel = more + 1 := ⟨fuel - 1, by omega⟩
      have hBegins := beginsValue_chars_append l h.1 (depth + 1)
        (charsOfItems l depth js ++ (l.line depth ++ ']' :: rest))
      have hFirst := skip_of_beginsValue hBegins
      simp only [value, hList]
      rw [items_first ((skip_line_append l _ _).trans hFirst) hBegins
        (value_chars h.1 (numberEnds_items l depth js rest) hFirst (by omega)),
        items_charsOfItems h.2 (by simp) (by omega)]
      simp
  | obj [], _ =>
      have hObject : skip cs = '\x7b' :: '\x7d' :: rest := hSkip
      have hRoom : 2 < fuel + 1 := hFuel
      obtain ⟨fuel, rfl⟩ : ∃ more, fuel = more + 1 := ⟨fuel - 1, by omega⟩
      simp only [value, hObject]
      exact members_end [] (skip_cons (by decide) rest)
  | obj ((key, j) :: ms), h =>
      have hObject : skip cs = '\x7b' :: (l.line (depth + 1) ++ '"' :: memberTail l depth key j
          (charsOfMembers l depth ms ++ (l.line depth ++ '\x7d' :: rest))) := by
        rw [hSkip]
        simp [chars, escapedText, memberTail]
      simp only [chars, List.length_cons, List.length_append] at hFuel
      obtain ⟨fuel, rfl⟩ : ∃ more, fuel = more + 1 := ⟨fuel - 1, by omega⟩
      simp only [value, hObject]
      rw [members_first ((skip_line_append l _ _).trans (skip_cons (by decide) _))
        (memberRead_memberTail l h.1 fun hSkip =>
          value_chars h.1 (numberEnds_members l depth ms rest) hSkip (by omega)),
        members_charsOfMembers h.2 (by simp) (by omega)]
      simp

/-- By induction over the items: each is read with the fuel that its own text needs. -/
theorem items_charsOfItems {js : List Json} (h : ReadableItems js) {depth fuel : Nat}
    {acc : List Json} (hAcc : acc ≠ []) {rest : List Char}
    (hFuel : (charsOfItems l depth js).length < fuel) :
    items acc fuel (charsOfItems l depth js ++ (l.line depth ++ ']' :: rest)) =
      (.arr (acc.reverse ++ js), some rest) := by
  obtain ⟨fuel, rfl⟩ : ∃ more, fuel = more + 1 := ⟨fuel - 1, by omega⟩
  match js, h with
  | [], _ =>
      have hEnd : skip (charsOfItems l depth [] ++ (l.line depth ++ ']' :: rest)) =
          ']' :: rest := by
        rw [charsOfItems, List.nil_append, skip_line_append, skip_cons (by decide)]
      rw [items_end acc hEnd, List.append_nil]
  | j :: js, h =>
      simp only [charsOfItems, List.length_cons, List.length_append] at hFuel
      have hBegins := beginsValue_chars_append l h.1 (depth + 1)
        (charsOfItems l depth js ++ (l.line depth ++ ']' :: rest))
      have hItem := skip_of_beginsValue hBegins
      have hComma : skip (charsOfItems l depth (j :: js) ++ (l.line depth ++ ']' :: rest)) =
          ',' :: (l.line (depth + 1) ++ (j.chars l (depth + 1) ++
            (charsOfItems l depth js ++ (l.line depth ++ ']' :: rest)))) := by
        simp [charsOfItems, skip_cons (show isSpace ',' = false by decide)]
      rw [items_next hAcc hComma ((skip_line_append l _ _).trans hItem) hBegins
        (value_chars h.1 (numberEnds_items l depth js rest) hItem (by omega)),
        items_charsOfItems h.2 (by simp) (by omega)]
      simp

/-- The same for members, with their keys. -/
theorem members_charsOfMembers {ms : List (String × Json)} (h : ReadableMembers ms)
    {depth fuel : Nat} {acc : List (String × Json)} (hAcc : acc ≠ []) {rest : List Char}
    (hFuel : (charsOfMembers l depth ms).length < fuel) :
    members acc fuel (charsOfMembers l depth ms ++ (l.line depth ++ '\x7d' :: rest)) =
      (.obj (acc.reverse ++ ms), some rest) := by
  obtain ⟨fuel, rfl⟩ : ∃ more, fuel = more + 1 := ⟨fuel - 1, by omega⟩
  match ms, h with
  | [], _ =>
      have hEnd : skip (charsOfMembers l depth [] ++ (l.line depth ++ '\x7d' :: rest)) =
          '\x7d' :: rest := by
        rw [charsOfMembers, List.nil_append, skip_line_append, skip_cons (by decide)]
      rw [members_end acc hEnd, List.append_nil]
  | (key, j) :: ms, h =>
      simp only [charsOfMembers, List.length_cons, List.length_append] at hFuel
      have hComma : skip (charsOfMembers l depth ((key, j) :: ms) ++
          (l.line depth ++ '\x7d' :: rest)) =
          ',' :: (l.line (depth + 1) ++ '"' :: memberTail l depth key j
            (charsOfMembers l depth ms ++ (l.line depth ++ '\x7d' :: rest))) := by
        simp [charsOfMembers, escapedText, memberTail,
          skip_cons (show isSpace ',' = false by decide)]
      rw [members_next hAcc hComma ((skip_line_append l _ _).trans (skip_cons (by decide) _))
        (memberRead_memberTail l h.1 fun hSkip =>
          value_chars h.1 (numberEnds_members l depth ms rest) hSkip (by omega)),
        members_charsOfMembers h.2 (by simp) (by omega)]
      simp

end

/-- A value is read back in any layout. -/
theorem read_chars {j : Json} (h : j.Readable) (depth : Nat) :
    read (j.chars l depth) = (j, none) := by
  have hSkip : skip (j.chars l depth) = j.chars l depth ++ [] := by
    rw [List.append_nil]
    exact skip_of_beginsValue (beginsValue_chars l h depth)
  have hValue := value_chars l h (Text.stops_nil) hSkip
    (show _ < 2 * (j.chars l depth).length + 2 by omega)
  simp [read, hValue, skip]

end Layouts

/-- Reading undoes writing on one line. -/
theorem read_compact {j : Json} (h : j.Readable) : read j.compact.toList = (j, none) := by
  rw [compact, String.toList_ofList, compactChars_eq j 0]
  exact read_chars .compact h 0

/-- Reading undoes writing with a line for every item. -/
theorem read_pretty {j : Json} (h : j.Readable) : read j.pretty.toList = (j, none) := by
  rw [pretty, String.toList_ofList, prettyChars_eq j 0]
  exact read_chars .pretty h 0

end SourceSurvey.Json
