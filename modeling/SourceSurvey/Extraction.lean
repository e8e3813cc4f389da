import SourceSurvey.Facts.Idiom
import SourceSurvey.Language
import SourceSurvey.Python.Facts
import SourceSurvey.Script.Facts

/-!
Facts about a file: from its syntax tree where there is a grammar for its extension, and otherwise
by searching for idioms.
-/

namespace SourceSurvey

/-- The grammars for source files. -/
inductive Analyzer where
  | python
  | script (dialect : Script.Dialect)
deriving Repr, DecidableEq

namespace Analyzer

open Syntax

/-- The grammar for files with an extension, in lower case and without dot. -/
def forExtension? (ext : String) : Option Analyzer :=
  if ext = "py" then some .python
  else if ["js", "jsx", "mjs", "cjs"].contains ext then some (.script .javascript)
  else if ["ts", "mts", "cts"].contains ext then some (.script .typescript)
  else if ext = "tsx" then some (.script .tsx)
  else none

def name : Analyzer → String
  | python => "python"
  | script .javascript => "javascript"
  | script .typescript => "typescript"
  | script .tsx => "tsx"

def extensions : Analyzer → List String
  | python => ["py"]
  | script .javascript => ["js", "jsx", "mjs", "cjs"]
  | script .typescript => ["ts", "mts", "cts"]
  | script .tsx => ["tsx"]

/-- The tree of a text. -/
def parse (a : Analyzer) (content : String) : Tree :=
  match a with
  | python => Python.parse content
  | script dialect => Script.parse dialect content

/-- The facts in a tree. -/
def treeFacts (a : Analyzer) (t : Tree) : Facts :=
  match a with
  | python => Python.facts t
  | script dialect => Script.facts dialect t

/-- The facts about a text: none if it has a fault. -/
def facts (a : Analyzer) (content : String) : Facts :=
  let t := a.parse content
  if t.hasFault then .failedAt (t.faultLine?.getD 1) else a.treeFacts t

end Analyzer

namespace Extraction

/-- The facts about a file, the first of each kind. -/
def facts {τ : Type} [DecidableEq τ] [PathText τ] (path : τ) (language : Language)
    (content : String) : Facts :=
  if language.isKnown then
    match Analyzer.forExtension? (Language.extensionOf path) with
    | some analyzer => (analyzer.facts content).truncated
    | none => (Idiom.facts content).truncated
  else .unsupported

end Extraction

end SourceSurvey
