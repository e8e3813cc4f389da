import SourceSurvey.Facts
import SourceSurvey.Regex.Build
import SourceSurvey.Regex.Standard

/-!
Facts found by searching a text for the idioms of scripts. Every idiom runs over the whole text,
one after the other, so that a name that two of them recognise appears twice.
-/

namespace SourceSurvey.Idiom

open Regex

def imports : List Regex :=
  [sequence [text "import", blanks, few inLine, blanks, text "from", blanks, quotedText],
    sequence [text "import", blanks, quotedText],
    sequence [text "require(", quotedText, text ")"]]

/-- Exported declarations with a name. -/
def exportedDeclaration : Regex :=
  sequence [text "export", blanks, optional (sequence [text "default", blanks]),
    choice [text "class", text "function", text "const", text "let", text "var"], blanks, name]

/-- Lists of exported names in braces. -/
def exportedList : Regex :=
  sequence [text "export", gap, text "\x7b", gap, captured (many (noneOf "\x7d")), gap,
    text "\x7d"]

def moduleExports : Regex := sequence [text "module.exports", gap, text "=", gap, name]

def optionalAsync : Regex := optional (sequence [text "async", blanks])

def callables : List Regex :=
  [sequence [text "function", blanks, name, gap, text "("],
    sequence [text "const", blanks, name, gap, text "=", gap, optionalAsync, text "(",
      any (noneOf ")"), text ")", gap, text "=>"],
    sequence [name, gap, text ":", gap, optionalAsync, text "function"],
    sequence [text "async", blanks, text "function", blanks, name]]

def types : Regex := sequence [text "class", blanks, name]

/-- The local names in an export list: what stands before the word "as", if it stands there. -/
def localNames (list : List Char) : List (List Char) :=
  ((Text.splitBy (· = ',') list).map fun item =>
    Text.trimBoth Text.isBlank (Text.beforeInfix " as ".toList item)).filter (!·.isEmpty)

/-- The facts that the idioms find. -/
def facts (content : String) : Facts :=
  let text := content.toList
  { imports := (imports.flatMap (firstGroups · text)).map String.ofList
    types := (firstGroups types text).map String.ofList
    callables := (callables.flatMap (firstGroups · text)).map String.ofList
    exports := (firstGroups exportedDeclaration text ++
      (firstGroups exportedList text).flatMap localNames ++
      firstGroups moduleExports text).map String.ofList
    status := .heuristic }

end SourceSurvey.Idiom
