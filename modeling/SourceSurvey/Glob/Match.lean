import SourceSurvey.Glob.Basic
import SourceSurvey.Path.Text

namespace SourceSurvey.Glob

/-- The bytes of the UTF-8 form of a text. -/
def bytes (text : String) : List UInt8 := PathText.bytes text

/-- The slash byte. -/
def slash : UInt8 := 47

/-- Whether `k` holds of some end of the text, the whole and the empty text included. -/
def anyEnd (k : List UInt8 → Bool) : List UInt8 → Bool
  | [] => k []
  | b :: rest => k (b :: rest) || anyEnd k rest

/-- Whether `k` holds of what follows some slash. -/
def afterSlash (k : List UInt8 → Bool) : List UInt8 → Bool
  | [] => false
  | b :: rest => (b = slash && k rest) || afterSlash k rest

/-- The bytes that a range of a class stands for: the range of a character outside of ASCII covers
what lies between the last byte of its first and the first byte of its last character, and all
other bytes of the two. -/
def inRange (b : UInt8) (range : Char × Char) : Bool :=
  let first := bytes range.1.toString
  let last := bytes range.2.toString
  first.contains b || last.contains b ||
    (range.1 ≠ range.2 && first.getLast?.any (· ≤ b) && last.head?.any (b ≤ ·))

mutual

/-- Whether the token stands for nothing at all: a group without branches of any content. -/
def Token.isVoid : Token → Bool
  | .anyOf branches => branchesVoid branches
  | _ => false

def branchesVoid : List (List Token) → Bool
  | [] => true
  | branch :: branches => allVoid branch && branchesVoid branches

def allVoid : List Token → Bool
  | [] => true
  | token :: tokens => token.isVoid && allVoid tokens

end

mutual

/-- Whether the token matches some beginning of the text such that `k` holds of the rest. -/
def Token.run (k : List UInt8 → Bool) : Token → List UInt8 → Bool
  | .literal c, text =>
    (bytes c.toString).isPrefixOf text && k (text.drop (bytes c.toString).length)
  | .anyByte, text =>
    match text with
    | [] => false
    | _ :: rest => k rest
  | .anyBytes, text => anyEnd k text
  | .leadingDirectories, text => k text || afterSlash k text
  | .allBelow, text =>
    match text with
    | b :: rest => b = slash && anyEnd k rest
    | [] => false
  | .innerDirectories, text =>
    match text with
    | b :: rest => b = slash && (k rest || afterSlash k rest)
    | [] => false
  | .oneOf negated ranges, text =>
    match text with
    | [] => false
    | b :: rest => (ranges.any (inRange b) != negated) && k rest
  | .anyOf branches, text =>
    if branchesVoid branches then k text else runAny k branches text

/-- One of the branches, those without content left out. -/
def runAny (k : List UInt8 → Bool) : List (List Token) → List UInt8 → Bool
  | [], _ => false
  | branch :: branches, text => (!allVoid branch && runAll k branch text) || runAny k branches text

def runAll (k : List UInt8 → Bool) : List Token → List UInt8 → Bool
  | [], text => k text
  | token :: tokens, text => token.run (runAll k tokens) text

end

/-- Whether the pattern matches the whole path. Two stars alone match every path. -/
def isMatch {τ : Type} [PathText τ] (glob : Glob) (path : τ) : Bool :=
  match glob.tokens with
  | [.leadingDirectories] => true
  | tokens => runAll (·.isEmpty) tokens (PathText.bytes path)

end SourceSurvey.Glob
