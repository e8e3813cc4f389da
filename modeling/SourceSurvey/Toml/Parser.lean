import SourceSurvey.Dictionary
import SourceSurvey.Toml.Basic
import SourceSurvey.Text.Run

/-!
Reading documents made of tables. Tables are opened by headers in brackets or by dotted keys, and
none may be defined twice.
-/

namespace SourceSurvey.Toml

namespace Parser

/-- A step of reading: what was read and the rest, or nothing if the text is wrong. -/
abbrev Step (α : Type) := List Char → Option (α × List Char)

def isDigit (c : Char) : Bool := '0' ≤ c && c ≤ '9'

def isSpace (c : Char) : Bool := c = ' ' || c = '\t'

def isKeyChar (c : Char) : Bool :=
  isDigit c || ('a' ≤ c && c ≤ 'z') || ('A' ≤ c && c ≤ 'Z') || c = '_' || c = '-'

/-- Characters that may stand in comments and strings. -/
def isVisible (c : Char) : Bool := c = '\t' || (32 ≤ c.toNat && c.toNat ≠ 127)

def skipSpaces (cs : List Char) : List Char := cs.dropWhile isSpace

/-- Drop a comment, if one begins here. -/
def skipComment (cs : List Char) : List Char :=
  match cs with
  | '#' :: rest => rest.dropWhile isVisible
  | _ => cs

/-- The rest after the end of the line, where nothing but spaces and a comment may come before. -/
def endOfLine (cs : List Char) : Option (List Char) :=
  match skipComment (skipSpaces cs) with
  | [] => some []
  | '\n' :: rest => some rest
  | '\r' :: '\n' :: rest => some rest
  | _ => none

/-- Drop spaces, comments and line breaks. -/
def skipLines : (fuel : Nat) → List Char → List Char
  | 0, cs => cs
  | fuel + 1, cs =>
    match skipComment (skipSpaces cs) with
    | '\n' :: rest => skipLines fuel rest
    | '\r' :: '\n' :: rest => skipLines fuel rest
    | rest => rest

def skipBlank (cs : List Char) : List Char := skipLines cs.length cs

/-- The character with this many hexadecimal digits. -/
def codePoint (size : Nat) : Step Char := fun cs => do
  let digits := cs.take size
  guard (digits.length = size)
  let n ← Text.hexNumber? digits
  guard n.isValidChar
  return (Char.ofNat n, cs.drop size)

/-- The character that a backslash and what follows it stand for. -/
def escaped : Step Char
  | 'b' :: rest => some ('\x08', rest)
  | 't' :: rest => some ('\t', rest)
  | 'n' :: rest => some ('\n', rest)
  | 'f' :: rest => some ('\x0c', rest)
  | 'r' :: rest => some ('\r', rest)
  | '"' :: rest => some ('"', rest)
  | '\\' :: rest => some ('\\', rest)
  | 'u' :: rest => codePoint 4 rest
  | 'U' :: rest => codePoint 8 rest
  | _ => none

/-- A string on one line, after its opening quote. Between double quotes there are escapes. -/
def oneLine (quote : Char) (acc : List Char) : (fuel : Nat) → Step String
  | 0, _ | _, [] => none
  | fuel + 1, c :: rest =>
    if c = quote then some (String.ofList acc.reverse, rest)
    else if c = '\\' ∧ quote = '"' then do
      let (c, rest) ← escaped rest
      oneLine quote (c :: acc) fuel rest
    else if isVisible c then oneLine quote (c :: acc) fuel rest
    else none

/-- A backslash at the end of a line swallows the blanks and line breaks that follow. -/
def continuation? (cs : List Char) : Option (List Char) :=
  let isBreak (c : Char) : Bool := isSpace c || c = '\n' || c = '\r'
  match skipSpaces cs with
  | '\n' :: rest => some (rest.dropWhile isBreak)
  | '\r' :: '\n' :: rest => some (rest.dropWhile isBreak)
  | _ => none

/-- A string of many lines, after its three opening quotes. One or two quotes may stand in it, also
before the closing ones. -/
def manyLines (quote : Char) (acc : List Char) : (fuel : Nat) → Step String
  | 0, _ | _, [] => none
  | fuel + 1, c :: rest =>
    if c = quote then
      let run := (c :: rest).takeWhile (· = quote)
      if run.length < 3 then manyLines quote (c :: acc) fuel rest
      else if run.length ≤ 5 then
        some (String.ofList (acc.reverse ++ run.drop 3), (c :: rest).drop run.length)
      else none
    else if c = '\\' ∧ quote = '"' then
      match continuation? rest with
      | some rest => manyLines quote acc fuel rest
      | none => do
        let (c, rest) ← escaped rest
        manyLines quote (c :: acc) fuel rest
    else if c = '\r' then
      match rest with
      | '\n' :: rest => manyLines quote ('\n' :: acc) fuel rest
      | _ => none
    else if c = '\n' ∨ isVisible c then manyLines quote (c :: acc) fuel rest
    else none

/-- Any string that begins here. -/
def string : Step String
  | '"' :: '"' :: '"' :: rest => body '"' rest
  | '\'' :: '\'' :: '\'' :: rest => body '\'' rest
  | '"' :: rest => oneLine '"' [] (rest.length + 1) rest
  | '\'' :: rest => oneLine '\'' [] (rest.length + 1) rest
  | _ => none
where
  /-- A line break right after the opening quotes does not count. -/
  body (quote : Char) (rest : List Char) : Option (String × List Char) :=
    let rest := match rest with
      | '\n' :: rest => rest
      | '\r' :: '\n' :: rest => rest
      | _ => rest
    manyLines quote [] (rest.length + 1) rest

/-- A key without dots. -/
def simpleKey : Step String
  | '"' :: rest => oneLine '"' [] (rest.length + 1) rest
  | '\'' :: rest => oneLine '\'' [] (rest.length + 1) rest
  | cs =>
    let key := cs.takeWhile isKeyChar
    if key.isEmpty then none else some (String.ofList key, cs.dropWhile isKeyChar)

/-- Keys with dots between them. -/
def dottedKey : (fuel : Nat) → Step (List String)
  | 0, _ => none
  | fuel + 1, cs => do
    let (key, rest) ← simpleKey (skipSpaces cs)
    match skipSpaces rest with
    | '.' :: rest => do
      let (keys, rest) ← dottedKey fuel rest
      return (key :: keys, rest)
    | rest => return ([key], rest)

def key : Step (List String) := fun cs => dottedKey (cs.length + 1) cs

/-- Digits of a kind, with single underscores between them. -/
def numeral (isDigit : Char → Bool) : Step (List Char) := fun cs =>
  let text := cs.takeWhile fun c => isDigit c || c = '_'
  let rec wellFormed : Bool → List Char → Bool
    | afterDigit, [] => afterDigit
    | afterDigit, c :: cs => if c = '_' then afterDigit && wellFormed false cs else wellFormed true cs
  if wellFormed false text then some (text.filter (· ≠ '_'), cs.drop text.length) else none

def value (base : Nat) (digits : List Char) : Nat :=
  digits.foldl (fun n c => n * base + (Text.hexDigit? c).getD 0) 0

/-- A sign and a whole number without zeros in front of it. -/
def signedDigits : Step (Bool × List Char) := fun cs => do
  let (negative, cs) := match cs with
    | '-' :: rest => (true, rest)
    | '+' :: rest => (false, rest)
    | _ => (false, cs)
  let (digits, rest) ← numeral isDigit cs
  guard (digits.length = 1 ∨ digits.head? ≠ some '0')
  return ((negative, digits), rest)

/-- A number in base 16, 8 or 2, after its sign-less mark. -/
def basedNumber : Step Toml
  | '0' :: 'x' :: rest => withBase 16 (fun c => (Text.hexDigit? c).isSome) rest
  | '0' :: 'o' :: rest => withBase 8 (fun c => '0' ≤ c && c ≤ '7') rest
  | '0' :: 'b' :: rest => withBase 2 (fun c => c = '0' || c = '1') rest
  | _ => none
where
  withBase (base : Nat) (isDigit : Char → Bool) : Step Toml := fun cs => do
    let (digits, rest) ← numeral isDigit cs
    let n := value base digits
    guard (n < Nat.pow 2 63)
    return (.int n, rest)

/-- Infinity and the value that is no number, after an optional sign. -/
def specialFloat : Step Toml := fun cs =>
  let (negative, cs) := match cs with
    | '-' :: rest => (true, rest)
    | '+' :: rest => (false, rest)
    | _ => (false, cs)
  let nan : Float := 0.0 / 0.0
  let inf : Float := 1.0 / 0.0
  -- the undefined quotient has its sign set on some machines
  let nan := if nan.toBits.toNat ≥ Nat.pow 2 63 then -nan else nan
  match cs with
  | 'i' :: 'n' :: 'f' :: rest => some (.float (if negative then -inf else inf), rest)
  | 'n' :: 'a' :: 'n' :: rest => some (.float (if negative then -nan else nan), rest)
  | _ => none

/-- A decimal number, with or without fraction and exponent. -/
def decimalNumber : Step Toml := fun cs => do
  let ((negative, whole), rest) ← signedDigits cs
  let (part, rest) ← match rest with
    | '.' :: rest => numeral isDigit rest
    | _ => some ([], rest)
  let hasPart := !part.isEmpty
  let (exponent?, rest) ← match rest with
    | 'e' :: rest | 'E' :: rest => do
      let (below, rest) := match rest with
        | '-' :: rest => (true, rest)
        | '+' :: rest => (false, rest)
        | _ => (false, rest)
      let (digits, rest) ← numeral isDigit rest
      let n := min 100000 (value 10 digits)
      pure (some (if below then -Int.ofNat n else Int.ofNat n), rest)
    | _ => pure (none, rest)
  if hasPart ∨ exponent?.isSome then
    let digits := value 10 (whole ++ part)
    let scale := exponent?.getD 0 - Int.ofNat part.length
    let x := Float.ofScientific digits (scale < 0) scale.natAbs
    guard !x.isInf
    return (.float (if negative then -x else x), rest)
  else
    let n := Int.ofNat (value 10 whole)
    let n := if negative then -n else n
    guard (-(Nat.pow 2 63 : Int) ≤ n ∧ n < (Nat.pow 2 63 : Int))
    return (.int n, rest)

/-- A number of exactly so many digits, within bounds. -/
def fixedNumber (size least greatest : Nat) : Step (List Char) := fun cs => do
  let digits := cs.take size
  guard (digits.length = size ∧ digits.all isDigit)
  let n := value 10 digits
  guard (least ≤ n ∧ n ≤ greatest)
  return (digits, cs.drop size)

def char (c : Char) : Step Unit
  | d :: rest => if c = d then some ((), rest) else none
  | [] => none

def monthLength (year month : Nat) : Nat :=
  if month = 2 then
    if year % 4 = 0 ∧ (year % 100 ≠ 0 ∨ year % 400 = 0) then 29 else 28
  else if month = 4 ∨ month = 6 ∨ month = 9 ∨ month = 11 then 30 else 31

def date : Step (List Char) := fun cs => do
  let (year, rest) ← fixedNumber 4 0 9999 cs
  let (_, rest) ← char '-' rest
  let (month, rest) ← fixedNumber 2 1 12 rest
  let (_, rest) ← char '-' rest
  let (day, rest) ← fixedNumber 2 1 (monthLength (value 10 year) (value 10 month)) rest
  return (year ++ '-' :: month ++ '-' :: day, rest)

/-- A time of day; of a fraction of a second nine digits count, and zeros at its end do not. -/
def time : Step (List Char) := fun cs => do
  let (hour, rest) ← fixedNumber 2 0 23 cs
  let (_, rest) ← char ':' rest
  let (minute, rest) ← fixedNumber 2 0 59 rest
  let (_, rest) ← char ':' rest
  let (second, rest) ← fixedNumber 2 0 60 rest
  let whole := hour ++ ':' :: minute ++ ':' :: second
  match rest with
  | '.' :: rest =>
    let digits := rest.takeWhile isDigit
    guard !digits.isEmpty
    let part := ((digits.take 9).reverse.dropWhile (· = '0')).reverse
    return (whole ++ (if part.isEmpty then [] else '.' :: part), rest.dropWhile isDigit)
  | _ => return (whole, rest)

def zone : Step (List Char)
  | 'Z' :: rest | 'z' :: rest => some (['Z'], rest)
  | c :: rest =>
    if c = '+' ∨ c = '-' then do
      let (hour, rest) ← fixedNumber 2 0 23 rest
      let (_, rest) ← char ':' rest
      let (minute, rest) ← fixedNumber 2 0 59 rest
      return (c :: hour ++ ':' :: minute, rest)
    else some ([], c :: rest)
  | [] => some ([], [])

/-- A date with or without a time, or a time. -/
def moment : Step Toml := fun cs =>
  match date cs with
  | some (day, rest) =>
    match rest with
    | c :: after =>
      if c = 'T' ∨ c = 't' ∨ c = ' ' then
        match time after with
        | some (clock, rest) => do
          let (offset, rest) ← zone rest
          return (.moment (String.ofList (day ++ 'T' :: clock ++ offset)), rest)
        | none => if c = ' ' then some (.moment (String.ofList day), rest) else none
      else some (.moment (String.ofList day), rest)
    | [] => some (.moment (String.ofList day), rest)
  | none => do
    let (clock, rest) ← time cs
    return (.moment (String.ofList clock), rest)

/-- How a table came to be. -/
inductive Definition where
  /-- On the way to a table named by a header. -/
  | implied
  /-- By a header. -/
  | explicit
  /-- By dotted keys. -/
  | dotted
deriving DecidableEq

/-- A document being built: values, tables that may still grow, and lists of tables. -/
inductive Node where
  | value (t : Toml)
  | table (definition : Definition) (entries : List (String × Node))
  /-- Tables of a list, the last first. -/
  | tables (elements : List (List (String × Node)))

abbrev Entries := List (String × Node)

def lookup (key : String) (entries : Entries) : Option Node :=
  (entries.find? (·.1 = key)).map (·.2)

/-- Put an entry in place of the one with the same key, or at the end. -/
def set (key : String) (node : Node) : Entries → Entries
  | [] => [(key, node)]
  | (k, n) :: rest => if k = key then (key, node) :: rest else (k, n) :: set key node rest

/-- Change the entries of the table at a path. Tables on the way that are missing are made; with
`byDots` no table on the way may have been opened by a header. -/
def updateAt (byDots : Bool) (change : Option Definition → Entries → Option Entries) :
    Option Definition → List String → Entries → Option Entries
  | definition, [], entries => change definition entries
  | _, key :: path, entries => do
    match lookup key entries with
    | none =>
      let definition := if byDots then Definition.dotted else .implied
      let inner ← updateAt byDots change (some definition) path []
      return set key (.table definition inner) entries
    | some (.value _) => none
    | some (.table definition inner) =>
      guard !(byDots ∧ definition = .explicit)
      let inner ← updateAt byDots change (some definition) path inner
      return set key (.table definition inner) entries
    | some (.tables (last :: earlier)) =>
      let last ← updateAt byDots change (some .explicit) path last
      return set key (.tables (last :: earlier)) entries
    | some (.tables []) => none

/-- Put a value at a dotted key into a table. Tables named by the dots may not stem from headers. -/
def insertValue (path : List String) (value : Node) (entries : Entries) : Option Entries := do
  let key ← path.getLast?
  updateAt true (fun definition entries => do
    guard (path.length = 1 ∨ definition = some .dotted)
    guard (lookup key entries).isNone
    return set key value entries) none path.dropLast entries

/-- Open the table of a header, which may have been implied but not defined before. -/
def openTable (path : List String) (entries : Entries) : Option Entries := do
  let key ← path.getLast?
  updateAt false (fun _ entries =>
    match lookup key entries with
    | none => some (set key (.table .explicit []) entries)
    | some (.table .implied inner) => some (set key (.table .explicit inner) entries)
    | some _ => none) none path.dropLast entries

/-- Append a table to the list of a header in double brackets. -/
def appendTable (path : List String) (entries : Entries) : Option Entries := do
  let key ← path.getLast?
  updateAt false (fun _ entries =>
    match lookup key entries with
    | none => some (set key (.tables [[]]) entries)
    | some (.tables elements) => some (set key (.tables ([] :: elements)) entries)
    | some _ => none) none path.dropLast entries

/-- Put a value into the table that the last header opened. -/
def insertBelow (header path : List String) (value : Node) (entries : Entries) : Option Entries :=
  updateAt false (fun _ entries => insertValue path value entries) none header entries

mutual

def Node.finish : Node → Toml
  | .value t => t
  | .table _ entries => .table (finishEntries entries)
  | .tables elements => .arr (finishTables elements [])

def finishEntries : Entries → List (String × Toml)
  | [] => []
  | (key, node) :: rest => insertEntry key node.finish (finishEntries rest)

def finishTables : List Entries → List Toml → List Toml
  | [], acc => acc
  | entries :: rest, acc => finishTables rest (.table (finishEntries entries) :: acc)

end

/-- How deeply values may be nested. -/
def maxDepth : Nat := 80

mutual

/-- A value of any kind. -/
def anyValue (depth : Nat) : (fuel : Nat) → Step Toml
  | 0, _ | _, [] => none
  | fuel + 1, c :: rest =>
    let cs := c :: rest
    if c = '"' ∨ c = '\'' then (string cs).map fun (s, rest) => (.str s, rest)
    else if c = '[' then
      if depth = 0 then none else arrayItems (depth - 1) [] fuel rest
    else if c = '\x7b' then
      if depth = 0 then none
      else match skipSpaces rest with
        | '\x7d' :: rest => some (.table [], rest)
        | rest => inlineEntries (depth - 1) [] fuel rest
    else if "true".toList.isPrefixOf cs then some (.bool true, cs.drop 4)
    else if "false".toList.isPrefixOf cs then some (.bool false, cs.drop 5)
    else (moment cs).orElse fun _ => (basedNumber cs).orElse fun _ =>
      (specialFloat cs).orElse fun _ => decimalNumber cs

/-- The items of a list up to its closing bracket; a comma may follow the last. -/
def arrayItems (depth : Nat) (acc : List Toml) : (fuel : Nat) → Step Toml
  | 0, _ => none
  | fuel + 1, cs =>
    match skipBlank cs with
    | ']' :: rest => some (.arr acc.reverse, rest)
    | cs => do
      let (item, rest) ← anyValue depth fuel cs
      match skipBlank rest with
      | ',' :: rest => arrayItems depth (item :: acc) fuel rest
      | ']' :: rest => return (.arr (item :: acc).reverse, rest)
      | _ => none

/-- The entries of a table in braces, all on one line. -/
def inlineEntries (depth : Nat) (acc : Entries) : (fuel : Nat) → Step Toml
  | 0, _ => none
  | fuel + 1, cs => do
    let (path, rest) ← key cs
    let (_, rest) ← char '=' rest
    let (t, rest) ← anyValue depth fuel (skipSpaces rest)
    let acc ← insertValue path (.value t) acc
    match skipSpaces rest with
    | ',' :: rest => inlineEntries depth acc fuel rest
    | '\x7d' :: rest => return (.table (finishEntries acc), rest)
    | _ => none

end

/-- A document from here on, below the header read last. -/
def document (header : List String) (entries : Entries) : (fuel : Nat) → List Char → Option Toml
  | 0, _ => none
  | fuel + 1, cs =>
    match skipBlank cs with
    | [] => some (.table (finishEntries entries))
    | '[' :: '[' :: rest => do
      let (path, rest) ← key rest
      match rest with
      | ']' :: ']' :: rest => document path (← appendTable path entries) fuel (← endOfLine rest)
      | _ => none
    | '[' :: rest => do
      let (path, rest) ← key rest
      let (_, rest) ← char ']' rest
      document path (← openTable path entries) fuel (← endOfLine rest)
    | cs => do
      let (path, rest) ← key cs
      let (_, rest) ← char '=' rest
      let (t, rest) ← anyValue maxDepth (rest.length + 1) (skipSpaces rest)
      document header (← insertBelow header path (.value t) entries) fuel (← endOfLine rest)

end Parser

/-- Read a document; nothing if it is malformed. -/
def parse? (text : String) : Option Toml :=
  let chars := match text.toList with
    | '\ufeff' :: rest => rest
    | chars => chars
  Parser.document [] [] (chars.length + 1) chars

end SourceSurvey.Toml
