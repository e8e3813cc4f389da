import SourceSurvey.Glob.Match
import SourceSurvey.Glob.Parser
import SourceSurvey.Regex.Parser
import SourceSurvey.Tally

/-!
Patterns that are matched together. All but plain texts are turned into expressions first, and an
expression that is nested too deeply or too large is not taken, although its pattern can be read.
-/

namespace SourceSurvey.Glob

/-- Characters with a meaning of their own in expressions. -/
def metaChars : List Char := "\\.+*?()|[]\x7b\x7d^$#&-~".toList

/-- A character as part of an expression over bytes. -/
def escaped (c : Char) : String :=
  if c.toNat < 128 then
    if metaChars.contains c then String.ofList ['\\', c] else c.toString
  else
    String.join ((bytes c.toString).map fun b =>
      "\\x" ++ String.ofList (Nat.toDigits 16 b.toNat))

def rangeText (range : Char × Char) : String :=
  if range.1 = range.2 then escaped range.1 else escaped range.1 ++ "-" ++ escaped range.2

mutual

/-- A token as an expression; branches without content are left out. -/
def Token.expression : Token → String
  | .literal c => escaped c
  | .anyByte => "."
  | .anyBytes => ".*"
  | .leadingDirectories => "(?:/?|.*/)"
  | .allBelow => "/.*"
  | .innerDirectories => "(?:/|/.*/)"
  | .oneOf negated ranges =>
    "[" ++ (if negated then "^" else "") ++ String.join (ranges.map rangeText) ++ "]"
  | .anyOf branches =>
    if branchesVoid branches then "" else "(?:" ++ "|".intercalate (expressions branches) ++ ")"

def expressions : List (List Token) → List String
  | [] => []
  | branch :: branches =>
    (if allVoid branch then [] else [expressionOf branch]) ++ expressions branches

def expressionOf : List Token → String
  | [] => ""
  | token :: tokens => token.expression ++ expressionOf tokens

end

/-- The expression that a pattern is turned into. -/
def expression (glob : Glob) : String :=
  "(?-u)^" ++ (match glob.tokens with
    | [.leadingDirectories] => ".*"
    | tokens => expressionOf tokens) ++ "$"

/-- The parts of a class that a range makes: its inner bytes and those around them. -/
def rangeParts (range : Char × Char) : Nat :=
  if range.1 = range.2 then range.1.utf8Size else range.1.utf8Size + range.2.utf8Size - 1

/-- How many parts of a list a token makes. -/
def Token.parts : Token → Nat
  | .literal c => c.utf8Size
  | .allBelow => 2
  | .anyOf branches => if branchesVoid branches then 0 else 1
  | _ => 1

/-- A list of one part is that part. -/
def listLevel (parts : Nat) : Nat := if parts ≤ 1 then 0 else 1

mutual

/-- How deeply groups, repetitions, classes and lists are nested in a token's expression. -/
def Token.depth : Token → Nat
  | .literal _ | .anyByte => 0
  | .anyBytes | .allBelow => 1
  | .leadingDirectories | .innerDirectories => 4
  | .oneOf _ ranges => 1 + listLevel (total (ranges.map rangeParts))
  | .anyOf branches =>
    if branchesVoid branches then 0
    else 1 + listLevel (branches.filter (!allVoid ·)).length + branchesDepth branches

def branchesDepth : List (List Token) → Nat
  | [] => 0
  | branch :: branches =>
    max (listLevel (total (branch.map Token.parts)) + tokensDepth branch) (branchesDepth branches)

def tokensDepth : List Token → Nat
  | [] => 0
  | token :: tokens => max token.depth (tokensDepth tokens)

end

/-- The depth of the whole expression, which is a list. -/
def depth (glob : Glob) : Nat := 1 + tokensDepth glob.tokens

def Token.isLiteral : Token → Bool
  | .literal _ => true
  | _ => false

/-- Whether the tokens are a text. -/
def isLiteral (tokens : List Token) : Bool := !tokens.isEmpty && tokens.all Token.isLiteral

/-- Whether a pattern is compared as a text: literal characters with anything before them or with
anything after them. -/
def isText (glob : Glob) : Bool :=
  let afterDirectories := match glob.tokens with
    | .leadingDirectories :: tokens => tokens
    | tokens => tokens
  let ends := match afterDirectories with
    | [.anyBytes, .literal '/'] => false
    | .anyBytes :: tokens | tokens => isLiteral tokens
  let begins := match glob.tokens.getLast? with
    | some .anyBytes => isLiteral glob.tokens.dropLast
    | some .allBelow => glob.tokens.dropLast.all Token.isLiteral
    | _ => false
  ends || begins

/-- Whether every path that a pattern matches ends in an extension that the pattern spells out. -/
def hasExtension (glob : Glob) : Bool :=
  let ending := glob.tokens.reverse.takeWhile fun
    | .literal c => c ≠ '.' && c ≠ '/'
    | _ => false
  match glob.tokens.reverse.drop ending.length with
  | .literal c :: _ => c = '.'
  | _ => false

/-- Why patterns cannot be matched together. -/
inductive SetError where
  | pattern (e : SyntaxError)
  /-- A pattern with an extension is nested too deeply or too large by itself. -/
  | deepExtension (expression : String)
  | largeExtension (expression : String)
  /-- Of the other patterns, that with this number is nested too deeply. -/
  | deep (number : Nat)
  /-- The other patterns are too large together. -/
  | large
deriving Repr, DecidableEq

def SetError.message : SetError → String
  | pattern e => e.message
  | deepExtension expression =>
    "error parsing glob '" ++ expression ++ "': error parsing pattern 0"
  | largeExtension expression => "error parsing glob '" ++ expression ++ "': error building NFA"
  | deep number => "error parsing pattern " ++ toString number
  | large => "error building NFA"

/-- What is left to the library of expressions: which patterns are small enough for one expression. -/
class Engine where
  fit : List Glob → Bool

/-- Check a pattern that has an extension. -/
def checkAlone [Engine] (glob : Glob) : Except SetError Unit :=
  if Regex.maxDepth < glob.depth then .error (.deepExtension glob.expression)
  else if !Engine.fit [glob] then .error (.largeExtension glob.expression)
  else .ok ()

/-- Check patterns that are matched by one expression. -/
def checkTogether [Engine] (globs : List Glob) : Except SetError Unit :=
  match globs.findIdx? (Regex.maxDepth < ·.depth) with
  | some number => .error (.deep number)
  | none => if !Engine.fit globs then .error .large else .ok ()

/-- Read patterns and check that they can be matched together. -/
def parseSet [Engine] (patterns : List String) : Except SetError (List Glob) := do
  let globs ← (patterns.mapM parse).mapError .pattern
  let unequal := globs.filter (!isText ·)
  (unequal.filter hasExtension).forM checkAlone
  checkTogether (unequal.filter (!hasExtension ·))
  return globs

end SourceSurvey.Glob
