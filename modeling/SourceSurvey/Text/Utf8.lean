/-!
Text from bytes in UTF-8 form. Bytes that belong to no character are replaced, as many at a time as
could have begun one, and line feeds are never among them.
-/

namespace SourceSurvey.Text

/-- A character whose first bytes have been read. -/
structure Beginning where
  /-- The bits read so far. -/
  bits : Nat
  /-- How many bytes are missing. -/
  missing : Nat
  /-- The bounds of the next byte. -/
  least : UInt8
  greatest : UInt8

/-- What stands for bytes that belong to no character. -/
def replacement : Char := '\ufffd'

/-- What a first byte says: the character itself or its beginning. Nothing begins with a byte that
only continues a character, or that would begin an overlong form or too large a number. -/
def firstByte (b : UInt8) : Option (Char ⊕ Beginning) :=
  let n := b.toNat
  if n < 0x80 then some (.inl (Char.ofNat n))
  else if n < 0xC2 then none
  else if n < 0xE0 then some (.inr ⟨n - 0xC0, 1, 0x80, 0xBF⟩)
  else if n < 0xF0 then
    some (.inr ⟨n - 0xE0, 2, if n = 0xE0 then 0xA0 else 0x80, if n = 0xED then 0x9F else 0xBF⟩)
  else if n < 0xF5 then
    some (.inr ⟨n - 0xF0, 3, if n = 0xF0 then 0x90 else 0x80, if n = 0xF4 then 0x8F else 0xBF⟩)
  else none

/-- The characters of bytes, with nothing in place of bytes that belong to none. -/
def charsOfBytes (pending : Option Beginning) : List UInt8 → List (Option Char)
  | [] => if pending.isSome then [none] else []
  | b :: rest =>
    let first (before : List (Option Char)) : List (Option Char) :=
      match firstByte b with
      | none => before ++ none :: charsOfBytes none rest
      | some (.inl c) => before ++ some c :: charsOfBytes none rest
      | some (.inr p) => before ++ charsOfBytes (some p) rest
    match pending with
    | none => first []
    | some p =>
      if p.least ≤ b ∧ b ≤ p.greatest then
        let bits := p.bits * 64 + (b.toNat - 0x80)
        if p.missing = 1 then some (Char.ofNat bits) :: charsOfBytes none rest
        else charsOfBytes (some ⟨bits, p.missing - 1, 0x80, 0xBF⟩) rest
      else first [none]

/-- The text of bytes with replacements. -/
def ofBytes (bytes : List UInt8) : String :=
  String.ofList ((charsOfBytes none bytes).map (·.getD replacement))

/-- The text of bytes, if all of them belong to characters. -/
def ofBytes? (bytes : List UInt8) : Option String :=
  ((charsOfBytes none bytes).mapM id).map String.ofList

def toBytes (text : String) : List UInt8 := text.toUTF8.toList

end SourceSurvey.Text
