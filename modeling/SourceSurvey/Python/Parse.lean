import SourceSurvey.Python.Statement
import SourceSurvey.Syntax.Fault

/-!
From the text of a Python file to its tree.
-/

namespace SourceSurvey.Python

open Syntax

def grammar : Grammar Terminal Phrase Cursor where
  rule := Form.ofPhrase
  read := Cursor.read
  position := Cursor.position
  offset := Cursor.offset

def parseChars (text : List Char) : Except (Grammar.Stop Cursor) Tree :=
  grammar.parse text.length .empty (.call .statement) (Cursor.ofChars text)

/-- Where the tokens from a cursor on begin and end, at most `limit` many. -/
def tokenBounds : (limit : Nat) → Cursor → List (Nat × Nat)
  | 0, _ => []
  | limit + 1, c =>
    if c.rest.isEmpty then []
    else
      let length := max 1 c.tokenLength
      (c.offset, c.offset + length) ::
        tokenBounds limit (c.moved (c.offset + length) (c.rest.drop length))

/-- The tree of a text. If it has a fault, that is the cheapest run of tokens to leave out where
reading stopped, or else the token there; where a line ends too early, it is the line with those
that it continues. -/
def parse (content : String) : Tree :=
  let text := content.toList
  match parseChars text with
  | .ok tree => tree
  | .error stop =>
    let c := if stop.furthest.offset ≤ stop.start.offset then stop.start else stop.furthest
    let atToken := if c.gap.endsLine then c.start else c.offset
    let bounds (limit offset : Nat) :=
      tokenBounds limit ((Cursor.ofChars []).moved offset (text.drop offset))
    let fault :=
      if c.offset < text.length then
        (mendedFault? (fun text => (parseChars text).isOk) bounds text stop.start.offset
          c.offset).getD atToken
      else atToken
    .faulty .error (text.take fault) (text.drop fault)

end SourceSurvey.Python
