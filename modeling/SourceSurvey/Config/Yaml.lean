import SourceSurvey.Config
import SourceSurvey.Text.Run
import SourceSurvey.Yaml.Parser

/-!
Settings from a document. Every scalar may be read as a string; numbers and truth values must not
have quotes around them.
-/

namespace SourceSurvey

namespace Yaml

def string? : Yaml → Option String
  | scalar text _ => some text
  | _ => none

def bool? : Yaml → Option Bool
  | scalar text true =>
    if ["true", "True", "TRUE"].contains text then some true
    else if ["false", "False", "FALSE"].contains text then some false
    else none
  | _ => none

/-- A numeral in a base up to 16. -/
def numeral? (base : Nat) (digits : List Char) : Option Nat :=
  if digits.isEmpty then none
  else digits.foldl (fun acc c => do
    let n ← acc
    let d ← Text.hexDigit? c
    guard (d < base)
    return n * base + d) (some 0)

/-- A natural number below a limit. A decimal numeral has no leading zero. -/
def natural? (limit : Nat) : Yaml → Option Nat
  | scalar text true => do
    let digits := match text.toList with
      | '+' :: rest => rest
      | cs => cs
    let n ← match digits with
      | '0' :: 'x' :: rest => numeral? 16 rest
      | '0' :: 'o' :: rest => numeral? 8 rest
      | '0' :: 'b' :: rest => numeral? 2 rest
      | '0' :: _ :: _ => none
      | digits => numeral? 10 digits
    guard (n < limit)
    return n
  | _ => none

def isNothing : Yaml → Bool
  | scalar "" true => true
  | _ => false

/-- A list; what is left out is an empty one. -/
def list? {α : Type} (item : Yaml → Option α) (y : Yaml) : Option (List α) :=
  match y with
  | sequence items => items.mapM item
  | y => if y.isNothing then some [] else none

/-- The entries of a mapping; what is left out has none. -/
def entries? (y : Yaml) : Option (List (String × Yaml)) :=
  match y with
  | mapping entries => entries.mapM fun (key, value) => do return (← key.string?, value)
  | y => if y.isNothing then some [] else none

/-- The entries of a record, where no field may come twice. -/
def record? (fields : List String) (y : Yaml) : Option (List (String × Yaml)) := do
  let entries ← y.entries?
  guard (fields.all fun field => entries.countP (·.1 = field) ≤ 1)
  return entries

/-- A field of a record, or `default` if it is left out. -/
def fieldOr {α : Type} (entries : List (String × Yaml)) (name : String)
    (value : Yaml → Option α) (default : α) : Option α :=
  match entries.lookup name with
  | some y => value y
  | none => some default

end Yaml

namespace Config

open Yaml

def thresholds? (y : Yaml) : Option Thresholds := do
  let default : Thresholds := {}
  let entries ← y.record? ["key_component", "critical", "overview"]
  let score := natural? 256
  return {
    keyComponent := ← fieldOr entries "key_component" score default.keyComponent
    critical := ← fieldOr entries "critical" score default.critical
    overview := ← fieldOr entries "overview" score default.overview }

def strings? : Yaml → Option (List String) := list? string?

def extraRules? (y : Yaml) : Option Tag.ExtraRules := do
  let entries ← y.record? ["endpoint", "persistence_model", "ui_component"]
  return {
    endpoint := ← fieldOr entries "endpoint" strings? []
    persistenceModel := ← fieldOr entries "persistence_model" strings? []
    uiComponent := ← fieldOr entries "ui_component" strings? [] }

def extraFrameworks? (y : Yaml) : Option (Dictionary (List String)) := do
  let entries ← y.entries?
  return .ofList (← entries.mapM fun (name, signatures) => do return (name, ← strings? signatures))

/-- Settings from a document; all of them may be left out, and others are ignored. -/
def ofYaml? (y : Yaml) : Option Config := do
  let entries ← y.record? ["ignore_names", "excluded_paths", "include_text_files", "thresholds",
    "extra_patterns", "extra_frameworks"]
  return {
    ignoreNames := ← fieldOr entries "ignore_names" strings? []
    excludedPaths := ← fieldOr entries "excluded_paths" strings? []
    includeTextFiles := ← fieldOr entries "include_text_files" bool? false
    thresholds := ← fieldOr entries "thresholds" thresholds? {}
    extraRules := ← fieldOr entries "extra_patterns" extraRules? {}
    extraFrameworks := ← fieldOr entries "extra_frameworks" extraFrameworks? ∅ }

end Config

end SourceSurvey
