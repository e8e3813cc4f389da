import SourceSurvey.Complexity
import SourceSurvey.Config
import SourceSurvey.Extraction
import SourceSurvey.Filter
import SourceSurvey.Framework
import SourceSurvey.Record
import SourceSurvey.Text.Utf8

/-!
The rules by which the files of a project are judged, and the record of a single file.
-/

namespace SourceSurvey

structure Rules where
  filter : Filter
  registry : Tag.Registry
  catalog : Catalog
  includeTextFiles : Bool

namespace Rules

/-- Why settings give no rules. -/
inductive Fault where
  | excludedPaths (e : Glob.SetError)
  | tagRule (e : Tag.RuleError)
  | signature (e : Catalog.SignatureError)
deriving Repr, DecidableEq

def Fault.message : Fault → String
  | excludedPaths e => e.message
  | tagRule e => e.message
  | signature e => e.message

/-- The built-in rules and those of the settings. -/
def ofConfig [Regex.Engine] [Glob.Engine] (c : Config) : Except Fault Rules := do
  let filter ← (Filter.withExtras c.ignoreNames c.excludedPaths).mapError .excludedPaths
  let registry ← (Tag.registryWith c.extraRules).mapError .tagRule
  let catalog ← (Catalog.withExtras c.extraFrameworks.entries).mapError .signature
  return ⟨filter, registry, catalog, c.includeTextFiles⟩

section

variable {τ : Type} [DecidableEq τ] [PathText τ]

/-- Whether a file gets a record, by its path below the root. -/
def accepts (rules : Rules) (path : τ) : Bool :=
  !rules.filter.skips path && (rules.includeTextFiles || (Language.ofPath path).isKnown)

/-- The record of a file, given its path below the root. -/
def record [Regex.Engine] (rules : Rules) (path : τ) (bytes : List UInt8)
    (modified : Timestamp) : Record :=
  let content := Text.ofBytes bytes
  let language := Language.ofPath path
  let facts := Extraction.facts path language content
  { path := PathText.shown path
    size := bytes.length
    lineCount := Complexity.lineCount content
    fileType := ((Path.extension? path).map fun ext => "." ++ PathText.shown ext).getD ""
    language := language
    imports := facts.imports
    types := facts.types
    callables := facts.callables
    exports := facts.exports
    tags := rules.registry.tag content language
    complexity := Complexity.score content
    status := facts.status
    modified := some modified }

end

/-- The frameworks that a file shows signs of. -/
def frameworks [Regex.Engine] (rules : Rules) (bytes : List UInt8) : List String :=
  rules.catalog.detect (Text.ofBytes bytes)

end Rules

end SourceSurvey
