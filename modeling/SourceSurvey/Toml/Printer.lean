import SourceSurvey.Toml.Basic

/-!
Values on one line. Strings are written between whichever quotes need the fewest escapes.
-/

namespace SourceSurvey.Toml

/-- Floating-point numbers never have an exponent. -/
def floatStyle : Decimal.Style :=
  ⟨none, none, fun negative => if negative then "-nan" else "nan", "inf"⟩

inductive QuoteStyle where
  | oneLine
  | tripled
  /-- Three quotes and a line break, which does not belong to the string. -/
  | manyLines

def isControl (c : Char) : Bool := c.toNat < 32 || c.toNat = 127

/-- The length of the longest run of single quotes. -/
def quoteRun (s : List Char) : Nat :=
  (s.foldl (fun (longest, run) c =>
    if c = '\'' then (max longest (run + 1), run + 1) else (longest, 0)) (0, 0)).1

def layout (s : List Char) : QuoteStyle := if s.contains '\n' then .manyLines else .oneLine

/-- Whether a string is better written as it is, between single quotes: it holds a double quote or
a backslash, and nothing that single quotes cannot hold. -/
def prefersLiteral (s : List Char) : Bool :=
  (s.contains '"' || s.contains '\\') && quoteRun s < 3 && s.getLast? ≠ some '\'' &&
    s.all fun c => c = '\t' || c = '\n' || !isControl c

def escapedChar (style : QuoteStyle) (c : Char) : String :=
  if c = '\x08' then "\\b"
  else if c = '\t' then "\\t"
  else if c = '\n' then
    match style with
    | .manyLines => "\n"
    | _ => "\\n"
  else if c = '\x0c' then "\\f"
  else if c = '\r' then "\\r"
  else if c = '"' then "\\\""
  else if c = '\\' then "\\\\"
  else if isControl c then
    let digits := (Nat.toDigits 16 c.toNat).map Char.toUpper
    "\\u" ++ String.ofList (List.replicate (4 - digits.length) '0' ++ digits)
  else c.toString

def literalText (style : QuoteStyle) (s : String) : String :=
  match style with
  | .oneLine => "'" ++ s ++ "'"
  | .tripled => "'''" ++ s ++ "'''"
  | .manyLines => "'''\n" ++ s ++ "'''"

def basicText (style : QuoteStyle) (s : String) : String :=
  let body := String.join (s.toList.map (escapedChar style))
  match style with
  | .manyLines => "\"\"\"\n" ++ body ++ "\"\"\""
  | _ => "\"" ++ body ++ "\""

def stringText (s : String) : String :=
  let chars := s.toList
  if prefersLiteral chars then
    match layout chars with
    | .oneLine => literalText (if chars.contains '\'' then .tripled else .oneLine) s
    | style => literalText style s
  else basicText (layout chars) s

def isBareKeyChar (c : Char) : Bool :=
  ('a' ≤ c && c ≤ 'z') || ('A' ≤ c && c ≤ 'Z') || ('0' ≤ c && c ≤ '9') || c = '_' || c = '-'

/-- A key, in quotes if it has to be. -/
def keyText (key : String) : String :=
  let chars := key.toList
  if !chars.isEmpty && chars.all isBareKeyChar then key
  else if (chars.contains '"' || chars.contains '\\') &&
      chars.all (fun c => c = '\t' || (!isControl c && c ≠ '\'')) then literalText .oneLine key
  else basicText .oneLine key

/-- The key that a date or time has when it is written as a table. -/
def momentKey : String := "$__toml_private_datetime"

/-- An entry of a table. -/
def entryText (key value : String) : String := keyText key ++ " = " ++ value

def inBraces (body : String) : String := "\x7b " ++ body ++ " \x7d"

mutual

def text : Toml → String
  | str s => stringText s
  | int n => toString n
  | float x => floatStyle.text x
  | bool b => if b then "true" else "false"
  | moment m => inBraces (entryText momentKey (stringText m))
  | arr items => "[" ++ ", ".intercalate (itemTexts items) ++ "]"
  | table [] => "\x7b\x7d"
  | table entries => inBraces (", ".intercalate (entryTexts entries))

def itemTexts : List Toml → List String
  | [] => []
  | t :: rest => t.text :: itemTexts rest

def entryTexts : List (String × Toml) → List String
  | [] => []
  | (key, t) :: rest => entryText key t.text :: entryTexts rest

end

end SourceSurvey.Toml
