/-!
Patterns for paths: `?` and `*` match any bytes, slashes included, `**` between slashes any number
of directories, `[a-z]` one byte of a class, `{a,b}` either alternative, and a backslash takes the
character after it as it is. Patterns and paths are compared as bytes of their UTF-8 form.
-/

namespace SourceSurvey

namespace Glob

inductive Token where
  | literal (c : Char)
  | anyByte
  | anyBytes
  /-- Two stars and a slash at the beginning: no or any directories. -/
  | leadingDirectories
  /-- A slash and two stars at the end: all that lies below. -/
  | allBelow
  /-- Two stars between slashes. -/
  | innerDirectories
  | oneOf (negated : Bool) (ranges : List (Char × Char))
  | anyOf (branches : List (List Token))

/-- Why a text is no pattern. -/
inductive Cause where
  | unclosedClass
  | invalidRange (first last : Char)
  | unopenedBraces
  | unclosedBraces
  | danglingEscape
deriving Repr, DecidableEq

structure SyntaxError where
  pattern : String
  cause : Cause
deriving Repr, DecidableEq

def Cause.message : Cause → String
  | unclosedClass => "unclosed character class; missing ']'"
  | invalidRange first last =>
    "invalid range; '" ++ first.toString ++ "' > '" ++ last.toString ++ "'"
  | unopenedBraces =>
    "unopened alternate group; missing '\x7b' (maybe escape '\x7d' with '[\x7d]'?)"
  | unclosedBraces =>
    "unclosed alternate group; missing '\x7d' (maybe escape '\x7b' with '[\x7b]'?)"
  | danglingEscape => "dangling '\\'"

def SyntaxError.message (e : SyntaxError) : String :=
  "error parsing glob '" ++ e.pattern ++ "': " ++ e.cause.message

end Glob

/-- A pattern that has been read. -/
structure Glob where
  tokens : List Glob.Token

/-- The text as it is. -/
def Glob.plain (s : String) : List Glob.Token := s.toList.map .literal

end SourceSurvey
