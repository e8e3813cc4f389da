/-!
What is known about one file: the modules it imports, the types and callables it declares, the
names it exports.
-/

namespace SourceSurvey

/-- How the facts about a file were found. -/
inductive Status where
  /-- From a complete syntax tree. -/
  | parsed
  /-- By searching the text for idioms. -/
  | heuristic
  /-- The text has a syntax error, so there are no facts. -/
  | parseFailed
  /-- Files of this kind are not looked into. -/
  | unsupported
deriving Repr, DecidableEq

namespace Status

def all : List Status := [parsed, heuristic, parseFailed, unsupported]

def name : Status → String
  | parsed => "parsed"
  | heuristic => "heuristic"
  | parseFailed => "parse_failed"
  | unsupported => "unsupported"

def ofName? (name : String) : Option Status := all.find? (·.name = name)

end Status

structure Facts where
  imports : List String := []
  types : List String := []
  callables : List String := []
  exports : List String := []
  status : Status
  /-- The line of the first syntax error, counted from one. -/
  errorLine : Option Nat := none
deriving Repr, DecidableEq

namespace Facts

def maxItems : Nat := 20

/-- Only the first facts of each kind. -/
def truncated (f : Facts) : Facts :=
  { f with
    imports := f.imports.take maxItems
    types := f.types.take maxItems
    callables := f.callables.take maxItems
    exports := f.exports.take maxItems }

def isEmpty (f : Facts) : Bool :=
  f.imports.isEmpty && f.types.isEmpty && f.callables.isEmpty && f.exports.isEmpty

def unsupported : Facts := { status := .unsupported }

def failedAt (line : Nat) : Facts := { status := .parseFailed, errorLine := some line }

def errorMessage? (f : Facts) : Option String :=
  f.errorLine.map fun line => "syntax error near line " ++ toString line

end Facts

end SourceSurvey
