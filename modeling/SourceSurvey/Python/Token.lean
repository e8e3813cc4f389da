import SourceSurvey.Syntax.Grammar
import SourceSurvey.Text.Letter

/-!
The tokens of Python. Lines and indentation are tokens only where a rule asks for them, and blanks
elsewhere. A cursor knows the indentation of the open blocks, how many brackets are open, and the
quotation marks of the format strings it is in.
-/

namespace SourceSurvey.Python

open Syntax

inductive Terminal where
  /-- A word of the grammar. -/
  | word (text : String)
  /-- Any other word than some. -/
  | name (except : List String)
  | operator (text : String)
  | anyOperator (texts : List String)
  /-- A point, also one that begins a longer operator. -/
  | dot
  | number
  /-- A string without substitutions. -/
  | string
  | formatStart
  /-- The text of a format string up to a substitution or its end. -/
  | formatText
  | formatEnd
  /-- The text that says how a substitution is formatted. -/
  | formatSpec
  /-- Nothing, if no line ended before or brackets are open. -/
  | sameLine
  /-- The end of a line. -/
  | newline
  /-- The beginning of a block. -/
  | indent
  /-- The end of a block. -/
  | dedent

/-! ### Gaps -/

/-- Blanks, comments and continued lines before a token: whether a line ends in them, and the
indentation of the token's line. -/
structure Gap where
  text : List Char
  endsLine : Bool
  indent : Nat

namespace Gap

def isBlank (c : Char) : Bool :=
  c = ' ' || ('\t' ≤ c && c ≤ '\r') || c = '\ufeff' || c = '\u2060' || c = '\u200b'

/-- Lengthen a gap, whose text is kept latest first, by a blank. -/
def push (g : Gap) (c : Char) : Gap :=
  match c with
  | '\n' => ⟨c :: g.text, true, 0⟩
  | ' ' => ⟨c :: g.text, g.endsLine, g.indent + 1⟩
  | '\t' => ⟨c :: g.text, g.endsLine, g.indent + 8⟩
  | '\r' | '\x0c' => ⟨c :: g.text, g.endsLine, 0⟩
  | _ => ⟨c :: g.text, g.endsLine, g.indent⟩

/-- Lengthen a gap, whose text is kept latest first, as far as it goes. The end of the text ends
a line. -/
def extend (inComment : Bool) (g : Gap) : List Char → Gap
  | [] => ⟨g.text, true, 0⟩
  | c :: cs =>
    if c = '\n' then extend false (g.push c) cs
    else if inComment then extend true { g with text := c :: g.text } cs
    else if c = '#' then extend true { g with text := c :: g.text } cs
    else if isBlank c then extend false (g.push c) cs
    else if c = '\\' then
      match cs with
      | '\n' :: cs => extend false { g with text := '\n' :: c :: g.text } cs
      | '\r' :: '\n' :: cs => extend false { g with text := '\n' :: '\r' :: c :: g.text } cs
      | _ => g
    else g

/-- The gap at the beginning of a text. -/
def ofChars (cs : List Char) : Gap :=
  let g := extend false ⟨[], false, 0⟩ cs
  { g with text := g.text.reverse }

end Gap

/-! ### Words, operators and numbers -/

def isNameStart (c : Char) : Bool := c = '_' || Text.startsIdentifier c

def isNameChar (c : Char) : Bool := c = '_' || Text.continuesIdentifier c

def wordLength : List Char → Nat
  | c :: cs => if isNameStart c then (cs.takeWhile isNameChar).length + 1 else 0
  | [] => 0

/-- The operators and brackets, the longest first. -/
def operators : List (List Char) :=
  ["**=", "//=", ">>=", "<<=", "...", "->", ":=", "==", "!=", "<=", ">=", "<>", "+=", "-=", "*=",
    "/=", "%=", "@=", "&=", "|=", "^=", "**", "//", "<<", ">>", "+", "-", "*", "/", "%", "@", "&",
    "|", "^", "~", "<", ">", "=", ".", ",", ":", ";", "(", ")", "[", "]", "\x7b", "\x7d",
    "!"].map String.toList

def operatorAt (cs : List Char) : List Char :=
  (operators.find? (·.isPrefixOf cs)).getD []

def isDigit (c : Char) : Bool := '0' ≤ c && c ≤ '9'

def isHex (c : Char) : Bool := isDigit c || ('a' ≤ c && c ≤ 'f') || ('A' ≤ c && c ≤ 'F')

/-- The length of digits of a class with underscores between and behind them, zero if there is no
digit. -/
def digitsLength (isDigit : Char → Bool) (cs : List Char) : Nat :=
  match cs with
  | c :: _ => if isDigit c then (cs.takeWhile fun c => isDigit c || c = '_').length else 0
  | [] => 0

/-- The length of a mark that may follow. -/
def markLength (marks : List Char) : List Char → Nat
  | c :: _ => if marks.contains c then 1 else 0
  | [] => 0

def exponentLength : List Char → Nat
  | c :: cs =>
    if c = 'e' || c = 'E' then
      let sign := markLength ['+', '-'] cs
      match digitsLength isDigit (cs.drop sign) with
      | 0 => 0
      | n + 1 => n + sign + 2
    else 0
  | [] => 0

/-- The length of the number at the beginning of a text, zero if there is none. -/
def numberLength (cs : List Char) : Nat :=
  let ended (n : Nat) (marks : List Char) : Nat := n + markLength marks (cs.drop n)
  let fraction (n : Nat) : Nat :=
    let n := n + 1 + digitsLength isDigit (cs.drop (n + 1))
    ended (n + exponentLength (cs.drop n)) ['j', 'J']
  let decimal : Nat :=
    match digitsLength isDigit cs with
    | 0 => 0
    | n + 1 =>
      match cs.drop (n + 1) with
      | '.' :: _ => fraction (n + 1)
      | rest =>
        match exponentLength rest with
        | 0 => let n := ended (n + 1) ['l', 'L']; ended n ['j', 'J']
        | e + 1 => ended (n + e + 2) ['j', 'J']
  let based (isDigit : Char → Bool) : Nat :=
    let digits := (cs.drop 2).dropWhile (· = '_')
    match digitsLength isDigit digits with
    | 0 => 1
    | n + 1 => ended (cs.length - digits.length + n + 1) ['l', 'L']
  match cs with
  | '.' :: c :: _ => if isDigit c then fraction 0 else 0
  | '0' :: mark :: _ =>
    if mark = 'x' || mark = 'X' then based isHex
    else if mark = 'o' || mark = 'O' then based fun c => '0' ≤ c && c ≤ '7'
    else if mark = 'b' || mark = 'B' then based fun c => c = '0' || c = '1'
    else decimal
  | _ => decimal

/-! ### Strings -/

/-- How a string is quoted. -/
structure Quote where
  mark : Char
  triple : Bool
  raw : Bool
  format : Bool

namespace Quote

/-- The quotation marks at the end of the string. -/
def closing (q : Quote) : List Char := List.replicate (if q.triple then 3 else 1) q.mark

/-- The opening of a string at the beginning of a text, and its length. -/
def opening? (cs : List Char) : Option (Quote × Nat) :=
  let letters := cs.takeWhile "rRbBuUfF".toList.contains
  let rest := cs.drop letters.length
  match rest with
  | mark :: _ =>
    if mark = '"' || mark = '\'' || mark = '`' then
      let triple := mark ≠ '`' && [mark, mark, mark].isPrefixOf rest
      some (⟨mark, triple, letters.any (·.toLower = 'r'), letters.any (·.toLower = 'f')⟩,
        letters.length + if triple then 3 else 1)
    else none
  | [] => none

/-- How many characters behind a backslash lose their meaning. -/
def escaped (q : Quote) (cs : List Char) : Nat :=
  match cs with
  | '\r' :: '\n' :: _ => 2
  | 'N' :: '\x7b' :: rest => if q.raw then 0 else (rest.takeWhile (· ≠ '\x7d')).length + 3
  | c :: _ =>
    if c = '\\' || c = '\n' then 1
    else if q.raw then (if c = q.mark then 1 else 0)
    else if c = '"' || c = '\'' then 1
    else 0
  | [] => 0

/-- The length of a string's text up to its end, or in a format string up to a substitution.
`pending` characters belong to an escape. A line must not end in the text, except in a long string
and at the very beginning. -/
def textLength? (q : Quote) : (pending : Nat) → (fresh : Bool) → List Char → Option Nat
  | _, _, [] => none
  | n + 1, fresh, _ :: cs => (q.textLength? n fresh cs).map (· + 1)
  | 0, fresh, c :: cs =>
    if q.closing.isPrefixOf (c :: cs) then some 0
    else if c = '\\' then (q.textLength? (q.escaped cs) (!q.raw || fresh) cs).map (· + 1)
    else if c = '\n' && !q.triple && !fresh then none
    else if q.format && (c = '\x7b' || c = '\x7d') then
      if cs.head? = some c then (q.textLength? 1 false cs).map (· + 1) else some 0
    else (q.textLength? 0 false cs).map (· + 1)

end Quote

/-! ### Reading -/

/-- A place in a text before a token. -/
structure Cursor where
  gap : Gap
  rest : List Char
  /-- How many characters are before the token. -/
  offset : Nat
  word : String
  operator : String
  /-- How many brackets are open. -/
  depth : Nat
  /-- The indentation of the open blocks, innermost first. -/
  indents : List Nat
  /-- The quotation marks of the open format strings, innermost first. -/
  quotes : List Quote
  /-- Where the line of the token, or the line that it continues, begins. -/
  start : Nat

namespace Cursor

/-- How many characters are before the cursor, without those of the gap. -/
def position (c : Cursor) : Nat := c.offset - c.gap.text.length

/-- The cursor at a place in a text, all else as it was. -/
def moved (c : Cursor) (offset : Nat) (cs : List Char) : Cursor :=
  let gap := Gap.ofChars cs
  let rest := cs.drop gap.text.length
  { c with
    gap := gap, rest := rest, offset := offset + gap.text.length
    word := String.ofList (rest.take (wordLength rest))
    operator := String.ofList (operatorAt rest) }

/-- The cursor at the beginning of a text. -/
def ofChars (cs : List Char) : Cursor :=
  let c := moved ⟨⟨[], false, 0⟩, [], 0, "", "", 0, [], [], 0⟩ 0 cs
  { c with start := c.offset }

/-- The token stands further left than the block that the cursor is in. -/
def endsBlock (c : Cursor) : Bool :=
  c.depth = 0 && c.gap.endsLine && c.gap.indent < c.indents.headD 0

/-- The length of the token, whatever it is for. -/
def tokenLength (c : Cursor) : Nat :=
  let quoted := match Quote.opening? c.rest with
    | some (quote, start) =>
      ((({ quote with format := false }).textLength? 0 true (c.rest.drop start)).map
        (start + · + quote.closing.length)).getD 0
    | none => 0
  if quoted = 0 then max c.word.length (max (numberLength c.rest) c.operator.length) else quoted

/-- Read the next characters as one leaf. -/
def advance (c : Cursor) (kind : Kind) (length : Nat) : Option (List Tree × Cursor) :=
  if length = 0 || c.endsBlock then none
  else some ([.leaf kind none (String.ofList c.gap.text) (String.ofList (c.rest.take length))],
    c.moved (c.offset + length) (c.rest.drop length))

/-- The characters before the cursor's token, gap included, are text: read some of them. -/
def advanceRaw (c : Cursor) (length : Nat) : Option (List Tree × Cursor) :=
  let cs := c.gap.text ++ c.rest
  if length = 0 then none
  else some ([.leaf .token none "" (String.ofList (cs.take length))],
    c.moved (c.position + length) (cs.drop length))

/-- Read an operator. Brackets count. -/
def advanceOperator (c : Cursor) : Option (List Tree × Cursor) :=
  let depth :=
    if ["(", "[", "\x7b"].contains c.operator then c.depth + 1
    else if [")", "]", "\x7d"].contains c.operator then c.depth - 1
    else c.depth
  (c.advance .token c.operator.length).map fun (trees, after) =>
    (trees, { after with depth := depth })

/-- What a terminal reads at the cursor. -/
def read (terminal : Terminal) (c : Cursor) : Option (List Tree × Cursor) :=
  match terminal with
  | .word text => if c.word = text then c.advance .token text.length else none
  | .name except =>
    if except.contains c.word then none else c.advance .identifier c.word.length
  | .operator text => if c.operator = text then c.advanceOperator else none
  | .anyOperator texts => if texts.contains c.operator then c.advanceOperator else none
  | .dot => if c.rest.head? = some '.' then c.advance .token 1 else none
  | .number => c.advance .token (numberLength c.rest)
  | .string =>
    match Quote.opening? c.rest with
    | some (quote, start) =>
      if quote.format then none
      else (quote.textLength? 0 true (c.rest.drop start)).bind fun length =>
        c.advance .string (start + length + quote.closing.length)
    | none => none
  | .formatStart =>
    match Quote.opening? c.rest with
    | some (quote, start) =>
      if quote.format then
        (c.advance .token start).map fun (trees, after) =>
          (trees, { after with quotes := quote :: after.quotes, depth := after.depth + 1 })
      else none
    | none => none
  | .formatText =>
    match c.quotes with
    | quote :: _ => (quote.textLength? 0 true (c.gap.text ++ c.rest)).bind c.advanceRaw
    | [] => none
  | .formatEnd =>
    match c.quotes with
    | quote :: quotes =>
      if quote.closing.isPrefixOf (c.gap.text ++ c.rest) then
        (c.advanceRaw quote.closing.length).map fun (trees, after) =>
          (trees, { after with quotes := quotes, depth := after.depth - 1 })
      else none
    | [] => none
  | .formatSpec =>
    c.advanceRaw
      ((c.gap.text ++ c.rest).takeWhile (!"\x7b\x7d\n".toList.contains ·)).length
  | .sameLine => if c.depth = 0 && c.gap.endsLine then none else some ([], c)
  | .newline => if c.gap.endsLine then some ([], { c with start := c.offset }) else none
  | .indent =>
    if c.gap.endsLine && c.indents.headD 0 < c.gap.indent then
      some ([], { c with indents := c.gap.indent :: c.indents, start := c.offset })
    else none
  | .dedent =>
    if c.endsBlock then some ([], { c with indents := c.indents.drop 1, start := c.offset })
    else none

end Cursor

end SourceSurvey.Python
