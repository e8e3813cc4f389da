import SourceSurvey.Script.Statement
import SourceSurvey.Syntax.Fault

/-!
From the text of a script to its tree.
-/

namespace SourceSurvey.Script

open Syntax

def grammar (dialect : Dialect) : Grammar Terminal Phrase Cursor where
  rule := Form.ofPhrase dialect
  read := Cursor.read dialect
  position := Cursor.position
  offset := Cursor.offset

def parseChars (dialect : Dialect) (text : List Char) : Except (Grammar.Stop Cursor) Tree :=
  (grammar dialect).parse text.length (.optional (.terminal .interpreter)) (.call .statement)
    (Cursor.ofChars false 0 text)

/-- Where the tokens from a cursor on begin and end, at most `limit` many. -/
def tokenBounds : (limit : Nat) → Cursor → List (Nat × Nat)
  | 0, _ => []
  | limit + 1, c =>
    if c.rest.isEmpty then []
    else
      let length := max 1 c.tokenLength
      (c.offset, c.offset + length) ::
        tokenBounds limit
          (Cursor.ofChars (Cursor.opensOperand c.operator) (c.offset + length) (c.rest.drop length))

/-- What may be missing at the end of a text. -/
def closers : List String := ["\x7d", ")", "]", " x"]

/-- The tree of a script. If it has a fault, that is the cheapest run of tokens to leave out where
reading stopped, or else the token there. At the end of the text one token may be missing; if more
is, the fault is the whole statement. -/
def parse (dialect : Dialect) (content : String) : Tree :=
  let text := content.toList
  let reads (text : List Char) : Bool := (parseChars dialect text).isOk
  match parseChars dialect text with
  | .ok tree => tree
  | .error stop =>
    let start := stop.start.offset
    let furthest := max start stop.furthest.offset
    if furthest < text.length then
      let bounds (limit offset : Nat) :=
        tokenBounds limit (Cursor.ofChars false offset (text.drop offset))
      let fault := (mendedFault? reads bounds text start furthest).getD furthest
      .faulty .error (text.take fault) (text.drop fault)
    else
      let trimmed := (text.reverse.dropWhile isGapChar).reverse
      if closers.any fun closer => reads (trimmed ++ closer.toList) then
        .faulty .missing trimmed []
      else .faulty .error (text.take start) (text.drop start)

end SourceSurvey.Script
