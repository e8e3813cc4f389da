import SourceSurvey.Json.Basic
import SourceSurvey.Text.Run

/-!
Reading JSON. Every text gives a value; one that is no JSON gives a value with the error in it.
-/

namespace SourceSurvey.Json

namespace Parser

def isSpace (c : Char) : Bool := c = ' ' || c = '\n' || c = '\t' || c = '\r'

def skip (cs : List Char) : List Char := cs.dropWhile isSpace

def isDigit (c : Char) : Bool := '0' ≤ c && c ≤ '9'

def digitValue (c : Char) : Nat := c.toNat - '0'.toNat

/-- Four hexadecimal digits. -/
def fourDigits (cs : List Char) : Except SyntaxError (Nat × List Char) :=
  if (cs.take 4).length < 4 then .error .endInString
  else match Text.hexNumber? (cs.take 4) with
    | some n => .ok (n, cs.drop 4)
    | none => .error .invalidEscape

/-- The character after `\u`: one code unit, or two that belong together. -/
def codeUnits (cs : List Char) : Except SyntaxError (Char × List Char) := do
  let (n, rest) ← fourDigits cs
  if 0xDC00 ≤ n ∧ n ≤ 0xDFFF then throw .loneSurrogate
  else if 0xD800 ≤ n ∧ n ≤ 0xDBFF then
    match rest with
    | '\\' :: 'u' :: rest => do
      let (m, rest) ← fourDigits rest
      if 0xDC00 ≤ m ∧ m ≤ 0xDFFF then
        return (Char.ofNat (0x10000 + (n - 0xD800) * 0x400 + (m - 0xDC00)), rest)
      else throw .loneSurrogate
    | [] => throw .endInString
    | ['\\'] => throw .endInString
    | _ => throw .unfinishedSurrogate
  else return (Char.ofNat n, rest)

/-- The character that a backslash and what follows it stand for. -/
def escapeSequence : List Char → Except SyntaxError (Char × List Char)
  | [] => .error .endInString
  | c :: rest =>
    match c with
    | '"' => .ok ('"', rest)
    | '\\' => .ok ('\\', rest)
    | '/' => .ok ('/', rest)
    | 'b' => .ok ('\x08', rest)
    | 'f' => .ok ('\x0c', rest)
    | 'n' => .ok ('\n', rest)
    | 'r' => .ok ('\r', rest)
    | 't' => .ok ('\t', rest)
    | 'u' => codeUnits rest
    | _ => .error .invalidEscape

/-- The characters of a string up to its closing quote, `acc` being those before, latest first. -/
def stringBody (acc : List Char) : (fuel : Nat) → List Char →
    Except SyntaxError (String × List Char)
  | 0, _ => .error .endInString
  | _, [] => .error .endInString
  | fuel + 1, c :: rest =>
    if c = '"' then .ok (String.ofList acc.reverse, rest)
    else if c = '\\' then do
      let (c, rest) ← escapeSequence rest
      stringBody (c :: acc) fuel rest
    else if c.toNat < 32 then .error .controlCharacter
    else stringBody (c :: acc) fuel rest

/-- A string after its opening quote. -/
def string (cs : List Char) : Except SyntaxError (String × List Char) :=
  stringBody [] (cs.length + 1) cs

/-- The digits of a mantissa and the power of ten that goes with it. -/
structure Mantissa where
  digits : Nat
  exponent : Int

def wordLimit : Nat := Nat.pow 2 64

/-- Add digits before the point. Those that the mantissa has no room for only raise the exponent,
and from the first of them on none has. -/
def wholeDigits (m : Mantissa) (full : Bool) : List Char → Mantissa × Bool
  | [] => (m, full)
  | c :: cs =>
    let next := m.digits * 10 + digitValue c
    if full || wordLimit ≤ next then wholeDigits { m with exponent := m.exponent + 1 } true cs
    else wholeDigits { m with digits := next } false cs

/-- Add digits after the point; those that there is no room for do not count. -/
def partDigits (m : Mantissa) : List Char → Mantissa
  | [] => m
  | c :: cs =>
    let next := m.digits * 10 + digitValue c
    if wordLimit ≤ next then m else partDigits ⟨next, m.exponent - 1⟩ cs

/-- The largest power of ten that is scaled by in one step. -/
def stepLimit : Nat := 308

def powerOfTen (n : Nat) : Float := Float.ofScientific 1 false n

/-- Mantissa times power of ten, rounded at every step. Three steps cross the whole range. -/
def scaled (x : Float) (exponent : Int) : (fuel : Nat) → Float
  | 0 => x
  | fuel + 1 =>
    if exponent.natAbs ≤ stepLimit then
      if exponent < 0 then x / powerOfTen exponent.natAbs else x * powerOfTen exponent.natAbs
    else if x == 0 then x
    else if exponent < 0 then scaled (x / powerOfTen stepLimit) (exponent + stepLimit) fuel
    else 1 / 0

def Mantissa.toFloat (m : Mantissa) (negative : Bool) : Float :=
  let x := scaled (Float.ofNat m.digits) m.exponent (m.exponent.natAbs / stepLimit + 1)
  if negative then -x else x

/-- The exponent of a number, after its letter. Exponents that no number can have are cut off. -/
def exponent (cs : List Char) : Except SyntaxError (Int × List Char) :=
  let (negative, cs) := match cs with
    | '-' :: rest => (true, rest)
    | '+' :: rest => (false, rest)
    | _ => (false, cs)
  match cs with
  | [] => .error .endInValue
  | c :: _ =>
    if isDigit c then
      let n := (cs.takeWhile isDigit).foldl (fun n c => min 100000 (n * 10 + digitValue c)) 0
      .ok (if negative then -Int.ofNat n else Int.ofNat n, cs.dropWhile isDigit)
    else .error .invalidNumber

/-- The number that digits stand for if neither point nor exponent follows. -/
def integer (negative : Bool) (m : Mantissa) (full : Bool) : Json :=
  if full then .float (m.toFloat negative)
  else if negative then
    if m.digits = 0 ∨ Nat.pow 2 63 < m.digits then .float (m.toFloat negative)
    else .int (-Int.ofNat m.digits)
  else .int (Int.ofNat m.digits)

/-- A number after its sign. -/
def number (negative : Bool) (cs : List Char) : Except SyntaxError (Json × List Char) := do
  let whole := cs.takeWhile isDigit
  let rest := cs.dropWhile isDigit
  match whole with
  | [] => throw (if cs.isEmpty then .endInValue else .invalidNumber)
  | '0' :: _ :: _ => throw .invalidNumber
  | _ =>
    let (m, full) := wholeDigits ⟨0, 0⟩ false whole
    let (m, isFloat, rest) ← match rest with
      | '.' :: rest => do
        let part := rest.takeWhile isDigit
        if part.isEmpty then throw (if rest.isEmpty then .endInValue else .invalidNumber)
        let m := if full then m else partDigits m part
        pure (m, true, rest.dropWhile isDigit)
      | _ => pure (m, full, rest)
    match rest with
    | 'e' :: rest | 'E' :: rest => do
      let (e, rest) ← exponent rest
      return (.float ({ m with exponent := m.exponent + e }.toFloat negative), rest)
    | _ => return (if isFloat then .float (m.toFloat negative) else integer negative m full, rest)

/-- The rest of a word such as `null`, of which the first letter has been read. -/
def restOfWord : List Char → List Char → Except SyntaxError (List Char)
  | [], rest => .ok rest
  | _ :: _, [] => .error .endInValue
  | w :: ws, c :: rest => if w = c then restOfWord ws rest else .error .expectedWord

/-- What has been read, and the rest of the text if it has been fine so far. -/
abbrev Outcome := Json × Option (List Char)

def finish (r : Except SyntaxError (Json × List Char)) : Outcome :=
  match r with
  | .ok (j, rest) => (j, some rest)
  | .error e => (.broken e, none)

mutual

def value : (fuel : Nat) → List Char → Outcome
  | 0, _ => (.broken .endInValue, none)
  | fuel + 1, cs =>
    match skip cs with
    | [] => (.broken .endInValue, none)
    | 'n' :: rest => finish do return (.null, ← restOfWord "ull".toList rest)
    | 't' :: rest => finish do return (.bool true, ← restOfWord "rue".toList rest)
    | 'f' :: rest => finish do return (.bool false, ← restOfWord "alse".toList rest)
    | '-' :: rest => finish (number true rest)
    | '"' :: rest => finish do
        let (s, rest) ← string rest
        return (.str s, rest)
    | '[' :: rest => items [] fuel rest
    | '\x7b' :: rest => members [] fuel rest
    | c :: rest =>
      if isDigit c then finish (number false (c :: rest)) else (.broken .expectedValue, none)

/-- The items of a list from here on, `acc` being those before, latest first. -/
def items (acc : List Json) : (fuel : Nat) → List Char → Outcome
  | 0, _ => (.arr (.broken .endInList :: acc).reverse, none)
  | fuel + 1, cs =>
    let fail (e : SyntaxError) : Outcome := (.arr (.broken e :: acc).reverse, none)
    let item (rest : List Char) : Outcome :=
      match value fuel rest with
      | (j, some rest) => items (j :: acc) fuel rest
      | (j, none) => (.arr (j :: acc).reverse, none)
    match skip cs with
    | [] => fail .endInList
    | ']' :: rest => (.arr acc.reverse, some rest)
    | ',' :: rest =>
      if acc.isEmpty then item (',' :: rest)
      else match skip rest with
        | [] => fail .endInValue
        | ']' :: _ => fail .trailingComma
        | rest => item rest
    | rest => if acc.isEmpty then item rest else fail .expectedListEnd

/-- The members of an object from here on, `acc` being those before, latest first. -/
def members (acc : List (String × Json)) : (fuel : Nat) → List Char → Outcome
  | 0, _ => (.obj (("", .broken .endInObject) :: acc).reverse, none)
  | fuel + 1, cs =>
    let fail (e : SyntaxError) : Outcome := (.obj (("", .broken e) :: acc).reverse, none)
    let member (rest : List Char) : Outcome :=
      match string rest with
      | .error e => fail e
      | .ok (key, rest) =>
        match skip rest with
        | [] => (.obj ((key, .broken .endInObject) :: acc).reverse, none)
        | ':' :: rest =>
          match value fuel rest with
          | (j, some rest) => members ((key, j) :: acc) fuel rest
          | (j, none) => (.obj ((key, j) :: acc).reverse, none)
        | _ => (.obj ((key, .broken .expectedColon) :: acc).reverse, none)
    match skip cs with
    | [] => fail .endInObject
    | '\x7d' :: rest => (.obj acc.reverse, some rest)
    | ',' :: rest =>
      if acc.isEmpty then fail .keyNotString
      else match skip rest with
        | [] => fail .endInValue
        | '"' :: rest => member rest
        | '\x7d' :: _ => fail .trailingComma
        | _ => fail .keyNotString
    | '"' :: rest => if acc.isEmpty then member rest else fail .expectedObjectEnd
    | _ => if acc.isEmpty then fail .keyNotString else fail .expectedObjectEnd

end

end Parser

/-- Read a text: the value, and the error that follows it if more than blanks does. A value that
is broken is followed by nothing. -/
def read (text : List Char) : Json × Option SyntaxError :=
  match Parser.value (2 * text.length + 2) text with
  | (j, some rest) => (j, if (Parser.skip rest).isEmpty then none else some .trailingCharacters)
  | (j, none) => (j, none)

/-- Read a text that must be JSON throughout. -/
def parse (text : List Char) : Except SyntaxError Json :=
  match read text with
  | (j, trailing) =>
    match j.error?.or trailing with
    | some e => .error e
    | none => .ok j

end SourceSurvey.Json
