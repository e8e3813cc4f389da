import SourceSurvey.Tag
import SourceSurvey.Regex.Build

/-!
The built-in rules, and the registry that has them and the rules of a configuration.
-/

namespace SourceSurvey.Tag

open Regex

/-- Routes, given as the first argument of a call or annotation. -/
def endpointRules : List Regex :=
  ["@app.route(", "@PostMapping(", "@GetMapping(", "router.get(", "app.get("].map fun call =>
    sequence [text call, quotedText]

/-- An annotation's arguments, if it has any. -/
def optionalArguments : Regex :=
  optional (sequence [text "(", any (noneOf ")"), text ")"])

/-- Classes derived from a model, entities, and tables. -/
def persistenceModelRules : List Regex :=
  [sequence [text "class", blanks, name, gap, text "(", any (noneOf ")"), text "Model",
      any (noneOf ")"), text ")"],
    sequence [text "@Entity", optionalArguments,
      repeated (sequence [blanks, text "@", many word, optionalArguments]), blanks,
      repeated (sequence [choice (["public", "protected", "private", "final", "abstract"].map text),
        blanks]),
      text "class", blanks, name],
    sequence [text "CREATE TABLE", blanks, name]].map ignoringCase

/-- A name that begins with a capital letter and is longer than that, captured. -/
def capitalised : Regex := captured (sequence [set (.range 'A' 'Z'), many word])

/-- Function components and class components, each on a single line. -/
def uiComponentRules : List Regex :=
  [sequence [choice [text "function", text "const"], blanks, capitalised, few inLine,
      choice [sequence [text "return", gap, text "("], sequence [gap, text "=>"]]],
    sequence [text "class", blanks, capitalised, blanks, text "extends", blanks,
      optional (text "React."), text "Component"]]

/-- Further rules, by category. -/
structure ExtraRules where
  endpoint : List String := []
  persistenceModel : List String := []
  uiComponent : List String := []
deriving Repr, DecidableEq

def builtinRules : Category → List Regex
  | .endpoint => endpointRules
  | .persistenceModel => persistenceModelRules
  | .uiComponent => uiComponentRules

def scopeOf : Category → Scope
  | .endpoint | .persistenceModel => .allLanguages
  | .uiComponent => .scripts

def ExtraRules.ofCategory (extra : ExtraRules) : Category → List String
  | .endpoint => extra.endpoint
  | .persistenceModel => extra.persistenceModel
  | .uiComponent => extra.uiComponent

/-- Register the built-in rules of a category and, if there are any, the further ones, which heed
letter case. -/
def registerCategory [Regex.Engine] (extra : ExtraRules) (registry : Registry)
    (category : Category) : Except RuleError Registry :=
  let scope := scopeOf category
  let registry : Registry := registry ++ [⟨category, scope, builtinRules category⟩]
  let patterns := extra.ofCategory category
  if patterns.isEmpty then .ok registry
  else
    match registry.register ⟨category, scope, patterns, false⟩ with
    | (registry, .ok ()) => .ok registry
    | (_, .error e) => .error e

/-- The built-in rules of each category, followed by the further ones. -/
def registryWith [Regex.Engine] (extra : ExtraRules) : Except RuleError Registry :=
  Category.all.foldlM (registerCategory extra) []

end SourceSurvey.Tag
