import SourceSurvey.Decimal.Shortest
import SourceSurvey.Dictionary

/-!
Values in JSON form. Objects keep their members in order. A text that breaks off or goes wrong
still gives the value up to that place, with `broken` where it ends, so that a reader of the value
meets its errors in the order of the text.
-/

namespace SourceSurvey

namespace Json

/-- Why a text is no JSON. -/
inductive SyntaxError where
  | endInList
  | endInObject
  | endInString
  | endInValue
  | expectedColon
  | expectedListEnd
  | expectedObjectEnd
  | expectedWord
  | expectedValue
  | invalidEscape
  | invalidNumber
  | numberOutOfRange
  | controlCharacter
  | keyNotString
  | loneSurrogate
  | unfinishedSurrogate
  | trailingComma
  | trailingCharacters
deriving Repr, DecidableEq

def SyntaxError.message : SyntaxError → String
  | endInList => "EOF while parsing a list"
  | endInObject => "EOF while parsing an object"
  | endInString => "EOF while parsing a string"
  | endInValue => "EOF while parsing a value"
  | expectedColon => "expected `:`"
  | expectedListEnd => "expected `,` or `]`"
  | expectedObjectEnd => "expected `,` or `\x7d`"
  | expectedWord => "expected ident"
  | expectedValue => "expected value"
  | invalidEscape => "invalid escape"
  | invalidNumber => "invalid number"
  | numberOutOfRange => "number out of range"
  | controlCharacter => "control character (\\u0000-\\u001F) found while parsing a string"
  | keyNotString => "key must be a string"
  | loneSurrogate => "lone leading surrogate in hex escape"
  | unfinishedSurrogate => "unexpected end of hex escape"
  | trailingComma => "trailing comma"
  | trailingCharacters => "trailing characters"

/-- Whether the text was fine as far as it went. -/
def SyntaxError.isEnd : SyntaxError → Bool
  | endInList | endInObject | endInString | endInValue => true
  | _ => false

end Json

inductive Json where
  | null
  | bool (b : Bool)
  | int (n : Int)
  /-- A number with a fraction or exponent, or too large for an integer. Infinite if even a
  floating-point number cannot hold it. -/
  | float (x : Float)
  | str (s : String)
  | arr (items : List Json)
  | obj (members : List (String × Json))
  /-- The place where the text ends or goes wrong: the last item or member of what it is in. -/
  | broken (e : Json.SyntaxError)

namespace Json

/-- Floating-point numbers have at most 16 digits before the point and five zeros after it, else
an exponent. -/
def floatStyle : Decimal.Style := ⟨some (-5), some 15, fun _ => "null", "null"⟩

mutual

/-- How deeply lists and objects are nested. -/
def depth : Json → Nat
  | arr items => listDepth items + 1
  | obj members => memberDepth members + 1
  | _ => 0

def listDepth : List Json → Nat
  | [] => 0
  | j :: rest => max j.depth (listDepth rest)

def memberDepth : List (String × Json) → Nat
  | [] => 0
  | (_, j) :: rest => max j.depth (memberDepth rest)

end

mutual

/-- The first error in the value, numbers that nothing can hold among them. -/
def error? : Json → Option SyntaxError
  | broken e => some e
  | float x => if x.isInf then some .numberOutOfRange else none
  | arr items => listError? items
  | obj members => memberError? members
  | _ => none

def listError? : List Json → Option SyntaxError
  | [] => none
  | j :: rest => j.error?.or (listError? rest)

def memberError? : List (String × Json) → Option SyntaxError
  | [] => none
  | (_, j) :: rest => j.error?.or (memberError? rest)

end

mutual

/-- The value with the members of its objects sorted, the last of equal keys kept. -/
def sorted : Json → Json
  | arr items => arr (sortedList items)
  | obj members => obj (sortedMembers members [])
  | j => j

def sortedList : List Json → List Json
  | [] => []
  | j :: rest => j.sorted :: sortedList rest

def sortedMembers : List (String × Json) → List (String × Json) → List (String × Json)
  | [], acc => acc
  | (key, j) :: rest, acc => sortedMembers rest (insertEntry key j.sorted acc)

end

/-- The member of an object with this key. -/
def get? (j : Json) (key : String) : Option Json :=
  match j with
  | obj members => members.lookup key
  | _ => none

end Json

end SourceSurvey
