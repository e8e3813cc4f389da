import SourceSurvey.Syntax.Grammar

/-!
The tokens of scripts. A cursor stands before a token, behind the gap of blanks and comments that
precedes it; which token is read depends on the terminal that asks for it.
-/

namespace SourceSurvey.Script

open Syntax

/-- The script languages: with type annotations or not, with markup or not. -/
inductive Dialect where
  | javascript
  | typescript
  | tsx
deriving Repr, DecidableEq

namespace Dialect

/-- The language has type annotations. -/
def typed : Dialect → Bool
  | javascript => false
  | typescript | tsx => true

/-- Markup elements are expressions. -/
def markup : Dialect → Bool
  | javascript | tsx => true
  | typescript => false

end Dialect

inductive Terminal where
  /-- A word of the grammar. -/
  | word (text : String)
  /-- Any other word than some. -/
  | name (kind : Kind) (except : List String)
  | privateName
  | operator (text : String)
  | anyOperator (texts : List String)
  /-- A closing angle bracket, also one that begins a longer operator. -/
  | angle
  | string
  | number
  | regex
  /-- The text of a template up to a substitution or its end. -/
  | templateText
  /-- A name of an element or attribute of markup. -/
  | tagName
  /-- A quoted attribute value. -/
  | tagString
  /-- The text between elements. -/
  | tagText
  /-- A reference to a character in markup. -/
  | reference
  /-- Nothing, if no line ended before. -/
  | sameLine
  /-- Nothing, where a statement may end without a semicolon. -/
  | statementEnd (afterExpression : Bool)
  /-- The line that names an interpreter, at the beginning of a text. -/
  | interpreter
  /-- The rest of a line that begins with a mark of a markup comment. -/
  | markupComment

/-! ### Gaps -/

/-- Blanks between tokens. -/
def isGapChar (c : Char) : Bool :=
  c = ' ' || ('\t' ≤ c && c ≤ '\r') || c = '\u00a0' || c = '\u1680' ||
    ('\u2000' ≤ c && c ≤ '\u200b') || c = '\u2028' || c = '\u2029' || c = '\u202f' ||
    c = '\u205f' || c = '\u2060' || c = '\u3000' || c = '\ufeff'

def endsLine (c : Char) : Bool := c = '\n' || c = '\u2028' || c = '\u2029'

/-- A part of a gap. -/
inductive Piece where
  | blank
  | lineEnd
  /-- A comment that ends with its line. -/
  | line
  /-- A comment in brackets, and whether a line ends in it. -/
  | block (broken : Bool)

/-- Blanks and comments, and whether a line ends in them, not counting comments in brackets. -/
structure Gap where
  text : List Char
  endsLine : Bool
  pieces : List Piece

namespace Gap

def none : Gap := ⟨[], false, []⟩

def cons (c : Char) (g : Gap) : Gap := { g with text := c :: g.text }

/-- A gap behind a comment. -/
def behind (comment : Piece) (g : Gap) : Gap := { g with pieces := comment :: g.pieces }

/-- A gap behind a blank. -/
def behindBlank (c : Char) (g : Gap) : Gap where
  text := c :: g.text
  endsLine := g.endsLine || Script.endsLine c
  pieces := (if Script.endsLine c then .lineEnd else .blank) :: g.pieces

mutual

/-- The blanks and comments at the beginning of a text, also those of markup in some places. -/
def ofBlank (markup : Bool) : List Char → Gap
  | '/' :: '/' :: cs => (((ofLine markup cs).behind .line).cons '/').cons '/'
  | '/' :: '*' :: cs =>
    match ofBlock? markup false cs with
    | some g => (g.cons '*').cons '/'
    | .none => none
  | '<' :: '!' :: '-' :: '-' :: cs =>
    if markup then
      (((((ofLine markup cs).behind .line).cons '-').cons '-').cons '!').cons '<'
    else none
  | '-' :: '-' :: '>' :: cs =>
    if markup then ((((ofLine markup cs).behind .line).cons '>').cons '-').cons '-' else none
  | c :: cs => if isGapChar c then (ofBlank markup cs).behindBlank c else none
  | [] => none

/-- The same within a comment that ends with its line. -/
def ofLine (markup : Bool) : List Char → Gap
  | c :: cs =>
    if Script.endsLine c || c = '\r' then (ofBlank markup cs).behindBlank c
    else (ofLine markup cs).cons c
  | [] => none

/-- The same within a comment in brackets, if it ends. -/
def ofBlock? (markup broken : Bool) : List Char → Option Gap
  | '*' :: '/' :: cs => some ((((ofBlank markup cs).behind (.block broken)).cons '/').cons '*')
  | c :: cs => (ofBlock? markup (broken || Script.endsLine c) cs).map (·.cons c)
  | [] => .none

end

/-- A statement may end before a comment, by what follows there up to the next token: behind
comments that end with their lines unless an operator follows that may go on with it, and behind
comments in brackets if a line ends in one of them. -/
def endsBefore (next : Char) (broken : Bool) : List Piece → Bool
  | [] => !"/,=".toList.contains next
  | .blank :: rest | .lineEnd :: rest | .line :: rest => endsBefore next broken rest
  | .block ends :: rest =>
    match rest with
    | .line :: _ | .block _ :: _ => endsBefore next (broken || ends) rest
    | .blank :: _ | .lineEnd :: _ => broken || ends
    | [] => (broken || ends) && !"/,=".toList.contains next

/-- A statement may end before one of the comments that are on its line or on that of the comment
before them. -/
def endsAtComment (next : Char) : (near : Bool) → List Piece → Bool
  | _, [] => false
  | near, .blank :: rest => endsAtComment next near rest
  | _, .lineEnd :: rest => endsAtComment next false rest
  | near, comment :: rest =>
    near && endsBefore next false (comment :: rest) || endsAtComment next true rest

end Gap

/-! ### Lexical classes -/

def isDigit (c : Char) : Bool := '0' ≤ c && c ≤ '9'

def isHex (c : Char) : Bool := isDigit c || ('a' ≤ c && c ≤ 'f') || ('A' ≤ c && c ≤ 'F')

def isLetter (c : Char) : Bool := ('a' ≤ c && c ≤ 'z') || ('A' ≤ c && c ≤ 'Z')

/-- The characters that no name holds. -/
def punctuation : List Char := ":;`\"'@#.,|^&<=>+-*/\\%?!~()[]\x7b\x7d".toList

def isNameChar (c : Char) : Bool :=
  '\u0020' < c && !isGapChar c && !punctuation.contains c

def isNameStart (c : Char) : Bool := isNameChar c && !isDigit c

/-- The length of an escaped code point, without the backslash. -/
def codePointLength? : List Char → Option Nat
  | 'u' :: '\x7b' :: cs =>
    let digits := cs.takeWhile isHex
    if digits.isEmpty then none
    else match cs.drop digits.length with
      | '\x7d' :: _ => some (digits.length + 3)
      | _ => none
  | 'u' :: cs => if ((cs.take 4).filter isHex).length = 4 then some 5 else none
  | _ => none

/-- The length of the word at the beginning of a text; `pending` characters belong to an escape. -/
def wordLength (first : Bool) : (pending : Nat) → List Char → Nat
  | _, [] => 0
  | n + 1, _ :: cs => wordLength false n cs + 1
  | 0, c :: cs =>
    if c = '\\' then
      match codePointLength? cs with
      | some n => wordLength false n cs + 1
      | none => 0
    else if (if first then isNameStart c else isNameChar c) then wordLength false 0 cs + 1
    else 0

/-- The operators and brackets, the longest first. -/
def operators : List (List Char) :=
  [">>>=", "===", "!==", "**=", "<<=", ">>=", ">>>", "&&=", "||=", "??=", "...", "=>", "==", "!=",
    "<=", ">=", "&&", "||", "??", "?.", "++", "--", "+=", "-=", "*=", "/=", "%=", "&=", "|=", "^=",
    "<<", ">>", "**", "$\x7b", "=", "<", ">", "!", "&", "|", "?", "+", "-", "*", "/", "%", "^", "~",
    ".", ",", ";", ":", "(", ")", "[", "]", "\x7b", "\x7d", "@", "`"].map String.toList

/-- The longest operator at the beginning of a text. A question mark before a decimal fraction
stands for itself. -/
def operatorAt (cs : List Char) : List Char :=
  match cs with
  | '?' :: '.' :: c :: _ => if isDigit c then ['?'] else ['?', '.']
  | _ => (operators.find? (·.isPrefixOf cs)).getD []

/-! ### Literals -/

/-- The length of an escape in a string or template, without the backslash. -/
def escapeLength? (cs : List Char) : Option Nat :=
  match cs with
  | 'x' :: a :: b :: _ => if isHex a && isHex b then some 3 else none
  | 'x' :: _ => none
  | 'u' :: _ => codePointLength? cs
  | '\r' :: '\n' :: _ => some 2
  | c :: _ =>
    let octal := (cs.take 3).takeWhile fun d => '0' ≤ d && d ≤ '7'
    if '0' ≤ c && c ≤ '7' then some octal.length else some 1
  | [] => none

/-- The length of a string up to its closing quote; `pending` characters belong to an escape. -/
def stringLength? (quote : Char) : (pending : Nat) → List Char → Option Nat
  | _, [] => none
  | n + 1, _ :: cs => (stringLength? quote n cs).map (· + 1)
  | 0, c :: cs =>
    if c = quote then some 1
    else if c = '\\' then
      match escapeLength? cs with
      | some n => (stringLength? quote n cs).map (· + 1)
      | none => none
    else if c = '\n' || c = '\r' then none
    else (stringLength? quote 0 cs).map (· + 1)

/-- The length of a template's text up to a substitution or the end of the template. -/
def templateLength? : (pending : Nat) → List Char → Option Nat
  | _, [] => none
  | n + 1, _ :: cs => (templateLength? n cs).map (· + 1)
  | 0, c :: cs =>
    if c = '`' || "$\x7b".toList.isPrefixOf (c :: cs) then some 0
    else if c = '\\' then
      match escapeLength? cs with
      | some n => (templateLength? n cs).map (· + 1)
      | none => none
    else (templateLength? 0 cs).map (· + 1)

/-- The length of a regular expression behind its opening slash, with its closing one. -/
def regexLength? (inClass escaped : Bool) : List Char → Option Nat
  | [] => none
  | c :: cs =>
    if c = '\n' then none
    else if escaped then (regexLength? inClass false cs).map (· + 1)
    else if c = '\\' then (regexLength? inClass true cs).map (· + 1)
    else if inClass then (regexLength? (c ≠ ']') false cs).map (· + 1)
    else if c = '[' then (regexLength? true false cs).map (· + 1)
    else if c = '/' then some 1
    else (regexLength? false false cs).map (· + 1)

/-- The length of digits of a class, single underscores between them allowed. -/
def digitsLength (isDigit : Char → Bool) : List Char → Nat
  | [] => 0
  | '_' :: c :: cs => if isDigit c then digitsLength isDigit cs + 2 else 0
  | c :: cs => if isDigit c then digitsLength isDigit cs + 1 else 0

/-- The length of digits that begin with a digit. -/
def numeralLength (isDigit : Char → Bool) : List Char → Nat
  | c :: cs => if isDigit c then digitsLength isDigit cs + 1 else 0
  | [] => 0

/-- The length of an exponent. -/
def exponentLength : List Char → Nat
  | c :: cs =>
    if c = 'e' || c = 'E' then
      let sign := match cs with
        | '+' :: _ | '-' :: _ => 1
        | _ => 0
      match numeralLength isDigit (cs.drop sign) with
      | 0 => 0
      | n + 1 => n + sign + 2
    else 0
  | [] => 0

/-- The length of a number in a base with its mark. -/
def basedLength (isDigit : Char → Bool) (cs : List Char) : Nat :=
  match numeralLength isDigit (cs.drop 2) with
  | 0 => 1
  | n + 1 =>
    match cs.drop (n + 3) with
    | 'n' :: _ => n + 4
    | _ => n + 3

/-- The length of the number at the beginning of a text, zero if there is none. -/
def numberLength (cs : List Char) : Nat :=
  let fraction (n : Nat) : Nat :=
    let digits := numeralLength isDigit (cs.drop (n + 1))
    n + 1 + digits + exponentLength (cs.drop (n + 1 + digits))
  match cs with
  | '.' :: c :: _ => if isDigit c then fraction 0 else 0
  | '0' :: mark :: _ =>
    if mark = 'x' || mark = 'X' then basedLength isHex cs
    else if mark = 'o' || mark = 'O' then basedLength (fun c => '0' ≤ c && c ≤ '7') cs
    else if mark = 'b' || mark = 'B' then basedLength (fun c => c = '0' || c = '1') cs
    else plain fraction
  | _ => plain fraction
where
  /-- Decimal digits with what may follow them. -/
  plain (fraction : Nat → Nat) : Nat :=
    match numeralLength isDigit cs with
    | 0 => 0
    | n + 1 =>
      match cs.drop (n + 1) with
      | '.' :: _ => fraction (n + 1)
      | 'n' :: _ => n + 2
      | rest => n + 1 + exponentLength rest

/-- The length of a reference to a character: its number or name between marks. -/
def referenceLength? (cs : List Char) : Option Nat :=
  let closed (start : Nat) (digits : List Char) (most : Nat) : Option Nat :=
    if digits.isEmpty || most < digits.length then none
    else match cs.drop (start + digits.length) with
      | ';' :: _ => some (start + digits.length + 1)
      | _ => none
  match cs with
  | '&' :: '#' :: c :: rest =>
    if c = 'x' || c = 'X' then closed 3 (rest.takeWhile isHex) 6
    else closed 2 ((c :: rest).takeWhile isDigit) 5
  | '&' :: rest => closed 1 (rest.takeWhile isLetter) 30
  | _ => none

/-- The length of a quoted attribute value behind its opening quote. Ampersands belong to
references, except before marks that begin none. -/
def tagStringLength? (quote : Char) : (pending : Nat) → List Char → Option Nat
  | _, [] => none
  | n + 1, _ :: cs => (tagStringLength? quote n cs).map (· + 1)
  | 0, c :: cs =>
    if c = quote then some 1
    else if c = '&' then
      match referenceLength? (c :: cs), cs with
      | some n, _ => (tagStringLength? quote (n - 1) cs).map (· + 1)
      | none, next :: _ =>
        if next = '#' || isLetter next then none
        else (tagStringLength? quote 0 cs).map (· + 1)
      | none, [] => none
    else (tagStringLength? quote 0 cs).map (· + 1)

/-- The length of a name in markup: a word, or Latin words joined by minus signs. -/
def tagNameLength (cs : List Char) : Nat :=
  let word := wordLength true 0 cs
  if word = 0 then 0
  else match cs.drop word with
    | '-' :: _ =>
      word + ((cs.drop word).takeWhile fun c =>
        isLetter c || isDigit c || c = '_' || c = '$' || c = '-').length
    | _ => word

/-! ### Reading -/

/-- A place in a text before a token. -/
structure Cursor where
  gap : Gap
  rest : List Char
  /-- How many characters are before the token. -/
  offset : Nat
  word : String
  operator : String

namespace Cursor

/-- How many characters are before the cursor, without those of the gap. -/
def position (c : Cursor) : Nat := c.offset - c.gap.text.length

/-- The cursor at a place in a text, where comments of markup may stand or not. -/
def ofChars (markup : Bool) (offset : Nat) (cs : List Char) : Cursor :=
  let gap := Gap.ofBlank markup cs
  let rest := cs.drop gap.text.length
  { gap := gap, rest := rest, offset := offset + gap.text.length
    word := String.ofList (rest.take (wordLength true 0 rest))
    operator := String.ofList (operatorAt rest) }

/-- The length of the token, whatever it is for. -/
def tokenLength (c : Cursor) : Nat :=
  if !c.word.isEmpty then c.word.length
  else
    let quoted := match c.rest with
      | quote :: cs =>
        if quote = '"' || quote = '\'' then (stringLength? quote 0 cs).getD 0 else 0
      | [] => 0
    max (quoted + 1) (max (numberLength c.rest) c.operator.length)

/-- Behind an operator no operand has ended, so comments of markup may stand there. Some operators
are left aside, since they end an operand as well. -/
def opensOperand (operator : String) : Bool :=
  !(["", ")", "]", "\x7d", "++", "--", "`", ">", "!"].contains operator)

/-- Read the next characters as one leaf. -/
def advance (c : Cursor) (kind : Kind) (length : Nat) (markup : Bool := false) :
    Option (List Tree × Cursor) :=
  if length = 0 then none
  else some ([.leaf kind none (String.ofList c.gap.text) (String.ofList (c.rest.take length))],
    ofChars markup (c.offset + length) (c.rest.drop length))

/-- The characters before the cursor's token, gap included, are text: read some of them. -/
def advanceRaw (c : Cursor) (length : Nat) : Option (List Tree × Cursor) :=
  let cs := c.gap.text ++ c.rest
  if length = 0 then none
  else some ([.leaf .token none "" (String.ofList (cs.take length))],
    ofChars false (c.position + length) (cs.drop length))

/-- The word "in" or "instanceof" begins the text and no name goes on after it. -/
def startsRelation (cs : List Char) : Bool :=
  let ended (cs : List Char) : Bool := match cs with
    | c :: _ => !isLetter c
    | [] => true
  match cs with
  | 'i' :: 'n' :: cs =>
    ended cs || ("stanceof".toList.isPrefixOf cs && ended (cs.drop 8))
  | _ => false

/-- A statement may end before the next token: at the end of a block or of the text, or where a
line ended and the token cannot go on with the statement. -/
def mayEnd (dialect : Dialect) (afterExpression : Bool) (c : Cursor) : Bool :=
  match c.rest with
  | [] => true
  | '\x7d' :: cs =>
    if dialect.typed then
      match cs.dropWhile isGapChar with
      | ':' :: _ => afterExpression
      | _ => true
    else true
  | first :: cs =>
    !dialect.typed && !afterExpression && Gap.endsAtComment first true c.gap.pieces ||
    c.gap.endsLine &&
      match first, cs.head? with
      | '.', next => !dialect.typed && (next.map isDigit).getD false
      | '+', next => next = some '+'
      | '-', next => next = some '-'
      | '!', next => next ≠ some '='
      | '(', _ | '[', _ => dialect.typed && !afterExpression
      | _, _ => !"`,:;*%><=?^|&/".toList.contains first && !startsRelation c.rest

/-- What a terminal reads at the cursor. -/
def read (dialect : Dialect) (terminal : Terminal) (c : Cursor) : Option (List Tree × Cursor) :=
  let here (fits : Bool) : Option (List Tree × Cursor) := if fits then some ([], c) else none
  match terminal with
  | .word text => if c.word = text then c.advance .token text.length else none
  | .name kind except =>
    if except.contains c.word then none else c.advance kind c.word.length
  | .privateName =>
    match c.rest with
    | '#' :: cs =>
      let length := wordLength true 0 cs
      if length = 0 then none else c.advance .privateName (length + 1)
    | _ => none
  | .operator text =>
    if c.operator = text then c.advance .token text.length (opensOperand text) else none
  | .anyOperator texts =>
    if texts.contains c.operator then
      c.advance .token c.operator.length (opensOperand c.operator)
    else none
  | .angle => if c.rest.head? = some '>' then c.advance .token 1 else none
  | .string =>
    match c.rest with
    | quote :: cs =>
      if quote = '"' || quote = '\'' then
        (stringLength? quote 0 cs).bind fun length => c.advance .string (length + 1)
      else none
    | [] => none
  | .number => c.advance .token (numberLength c.rest)
  | .regex =>
    match c.rest with
    | '/' :: cs =>
      match regexLength? false false cs with
      | some (n + 2) =>
        let flags := (cs.drop (n + 2)).takeWhile fun c => 'a' ≤ c && c ≤ 'z'
        c.advance .token (n + 3 + flags.length)
      | _ => none
    | _ => none
  | .templateText => (templateLength? 0 (c.gap.text ++ c.rest)).bind c.advanceRaw
  | .tagName => c.advance .token (tagNameLength c.rest)
  | .tagString =>
    match c.rest with
    | quote :: cs =>
      if quote = '"' || quote = '\'' then
        (tagStringLength? quote 0 cs).bind fun length => c.advance .token (length + 1)
      else none
    | [] => none
  | .tagText =>
    c.advanceRaw
      ((c.gap.text ++ c.rest).takeWhile (!"<>\x7b\x7d&".toList.contains ·)).length
  | .reference => (referenceLength? c.rest).bind fun length => c.advance .token length
  | .sameLine => here !c.gap.endsLine
  | .statementEnd afterExpression => here (c.mayEnd dialect afterExpression)
  | .interpreter =>
    match c.rest with
    | '#' :: '!' :: cs =>
      if c.offset = 0 then c.advance .token ((cs.takeWhile (· ≠ '\n')).length + 2) else none
    | _ => none
  | .markupComment =>
    if "<!--".toList.isPrefixOf c.rest || "-->".toList.isPrefixOf c.rest then
      c.advance .token (c.rest.takeWhile (!endsLine ·)).length
    else none

end Cursor

end SourceSurvey.Script
