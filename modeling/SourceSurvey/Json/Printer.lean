import SourceSurvey.Json.Basic
import SourceSurvey.Text.Run

namespace SourceSurvey.Json

/-- A number below 16 as a hexadecimal digit. -/
def hexDigit (n : Nat) : Char := (Nat.toDigits 16 n).headD '0'

/-- How one character is written in a string: quotes, backslashes and controls are escaped. -/
def escapedChar (c : Char) : List Char :=
  if c = '"' then ['\\', '"']
  else if c = '\\' then ['\\', '\\']
  else if c = '\n' then ['\\', 'n']
  else if c = '\r' then ['\\', 'r']
  else if c = '\t' then ['\\', 't']
  else if c = '\x08' then ['\\', 'b']
  else if c = '\x0c' then ['\\', 'f']
  else if c.toNat < 32 then
    ['\\', 'u', '0', '0', hexDigit (c.toNat / 16), hexDigit (c.toNat % 16)]
  else [c]

def escapedText (s : String) : List Char := '"' :: s.toList.flatMap escapedChar ++ ['"']

/-- A value without items or members, which has one form in all layouts. -/
def atom : Json → List Char
  | null => "null".toList
  | bool true => "true".toList
  | bool false => "false".toList
  | int n => (toString n).toList
  | float x => (floatStyle.text x).toList
  | str s => escapedText s
  | arr _ => "[]".toList
  | obj _ => "\x7b\x7d".toList
  | broken _ => []

mutual

/-- The value on one line, without blanks. -/
def compactChars : Json → List Char
  | arr (j :: rest) => '[' :: j.compactChars ++ compactItems rest ++ [']']
  | obj ((key, j) :: rest) =>
    '\x7b' :: escapedText key ++ ':' :: j.compactChars ++ compactMembers rest ++ ['\x7d']
  | j => atom j

def compactItems : List Json → List Char
  | [] => []
  | j :: rest => ',' :: j.compactChars ++ compactItems rest

def compactMembers : List (String × Json) → List Char
  | [] => []
  | (key, j) :: rest => ',' :: escapedText key ++ ':' :: j.compactChars ++ compactMembers rest

end

/-- The end of a line and the blanks before the next item at this depth. -/
def newline (depth : Nat) : List Char := '\n' :: List.replicate (2 * depth) ' '

mutual

/-- The value with a line for every item and member, indented by two blanks for each level. -/
def prettyChars (depth : Nat) : Json → List Char
  | arr (j :: rest) =>
    '[' :: newline (depth + 1) ++ j.prettyChars (depth + 1) ++ prettyItems depth rest ++
      newline depth ++ [']']
  | obj ((key, j) :: rest) =>
    '\x7b' :: newline (depth + 1) ++ escapedText key ++ ':' :: ' ' :: j.prettyChars (depth + 1) ++
      prettyMembers depth rest ++ newline depth ++ ['\x7d']
  | j => atom j

def prettyItems (depth : Nat) : List Json → List Char
  | [] => []
  | j :: rest => ',' :: newline (depth + 1) ++ j.prettyChars (depth + 1) ++ prettyItems depth rest

def prettyMembers (depth : Nat) : List (String × Json) → List Char
  | [] => []
  | (key, j) :: rest =>
    ',' :: newline (depth + 1) ++ escapedText key ++ ':' :: ' ' :: j.prettyChars (depth + 1) ++
      prettyMembers depth rest

end

def compact (j : Json) : String := String.ofList j.compactChars

def pretty (j : Json) : String := String.ofList (j.prettyChars 0)

end SourceSurvey.Json
