import SourceSurvey.Dictionary
import SourceSurvey.Disk.Lookup
import SourceSurvey.Json.Parser
import SourceSurvey.Json.Printer
import SourceSurvey.Text.Blank
import SourceSurvey.Toml.Parser
import SourceSurvey.Toml.Printer

/-!
The dependencies that a project declares in the manifests at its root.
-/

namespace SourceSurvey

/-- A name and what is said of its version. -/
abbrev Dependency := String × String

/-- Where packages come from. Each ecosystem has its kind of manifest. -/
inductive Ecosystem where
  | npm
  | pip
  | go
  | cargo
deriving Repr, DecidableEq

namespace Ecosystem

def all : List Ecosystem := [npm, pip, go, cargo]

def name : Ecosystem → String
  | npm => "npm"
  | pip => "pip"
  | go => "go"
  | cargo => "cargo"

def ofName? (name : String) : Option Ecosystem := all.find? (·.name = name)

def manifestName : Ecosystem → String
  | npm => "package.json"
  | pip => "requirements.txt"
  | go => "go.mod"
  | cargo => "Cargo.toml"

/-- A package's name with that of the ecosystem before it. -/
def key (e : Ecosystem) (package : String) : String := e.name ++ ":" ++ package

end Ecosystem

namespace Manifest

/-- How deeply the values of a manifest may be nested. -/
def maxDepth : Nat := 127

def packageSections : List String := ["dependencies", "devDependencies"]

/-- The entries of the sections of a package description, those for development last. Versions
that are no strings are given as they are. -/
def ofPackageJson? (content : String) : Option (List Dependency) :=
  match Json.parse content.toList with
  | .error _ => none
  | .ok doc =>
    if doc.depth ≤ maxDepth then
      some <| packageSections.flatMap fun sectionName =>
        match doc.sorted.get? sectionName with
        | some (.obj members) =>
          members.map fun (name, spec) =>
            match spec with
            | .str s => (name, s)
            | spec => (name, spec.compact)
        | _ => []
    else none

def comparisons : List (List Char) := ["==", ">=", "<="].map String.toList

/-- What is before the first comparison, or all of the line. -/
def beforeComparison : List Char → List Char
  | [] => []
  | c :: cs =>
    if comparisons.any (·.isPrefixOf (c :: cs)) then [] else c :: beforeComparison cs

/-- Whether a line says nothing about a requirement: it is empty, a comment or an option. -/
def isNoRequirement (line : List Char) : Bool :=
  match line with
  | [] => true
  | c :: _ => c = '#' || c = '-'

/-- Each line is a requirement: a name, and perhaps a comparison. -/
def ofRequirements (content : String) : List Dependency :=
  let lines := (Text.lines content.toList).map (Text.trimBoth Text.isBlank)
  (lines.filter (!isNoRequirement ·)).filterMap fun line =>
    let name := Text.trimBoth Text.isBlank (beforeComparison line)
    if name.isEmpty then none else some (String.ofList name, String.ofList line)

/-- A module and its version, up to a comment. -/
def requireLine? (line : List Char) : Option Dependency :=
  match Text.words (Text.beforeInfix "//".toList line) with
  | [] => none
  | [path] => some (String.ofList path, "")
  | path :: version :: _ => some (String.ofList path, String.ofList version)

def require : List Char := "require ".toList

/-- What the lines of a module description require; `inBlock` says whether they are in the
parentheses of a requirement. -/
def requirements (inBlock : Bool) : List (List Char) → List Dependency
  | [] => []
  | line :: rest =>
    if line.isEmpty ∨ "//".toList.isPrefixOf line then requirements inBlock rest
    else if line = "require (".toList then requirements true rest
    else if line = [')'] then requirements false rest
    else if require.isPrefixOf line then
      let required := line.drop require.length
      (if required.contains '(' then [] else (requireLine? required).toList) ++
        requirements inBlock rest
    else (if inBlock then (requireLine? line).toList else []) ++ requirements inBlock rest

def ofGoMod (content : String) : List Dependency :=
  requirements false ((Text.lines content.toList).map (Text.trimBoth Text.isBlank))

def crateSections : List String := ["dependencies", "dev-dependencies"]

/-- A version given alone or as an entry of a table; anything else is given as it is. -/
def crateVersion (spec : Toml) : String :=
  match spec with
  | .str version => version
  | spec => ((spec.get? "version").bind Toml.str?).getD spec.text

def ofCargoToml? (content : String) : Option (List Dependency) :=
  (Toml.parse? content).map fun doc =>
    crateSections.flatMap fun sectionName =>
      (((doc.get? sectionName).bind Toml.entries?).getD []).map fun (name, spec) =>
        (name, crateVersion spec)

/-- The dependencies in the text of a manifest, none if it is malformed. -/
def parse? : Ecosystem → String → Option (List Dependency)
  | .npm, content => ofPackageJson? content
  | .pip, content => some (ofRequirements content)
  | .go, content => some (ofGoMod content)
  | .cargo, content => ofCargoToml? content

/-- Why a manifest says nothing. -/
inductive Failure where
  /-- It is no text. -/
  | unreadable (path : String)
  | malformed (path : String)
deriving Repr, DecidableEq

def Failure.message : Failure → String
  | unreadable path => "reading " ++ path ++ ": stream did not contain valid UTF-8"
  | malformed path => "malformed " ++ path

section

variable {τ : Type} [DecidableEq τ] [LT τ] [PathText τ]

/-- The dependencies in the manifest of one ecosystem, if there is one at the root. -/
def load (disk : Disk τ) (root : τ) (e : Ecosystem) :
    Except Failure (Option (List Dependency)) :=
  let path := Path.join root (PathText.ofText e.manifestName)
  match disk.find? path with
  | some (.file bytes _) =>
    match Text.ofBytes? bytes with
    | none => .error (.unreadable (PathText.shown path))
    | some content =>
      match parse? e content with
      | none => .error (.malformed (PathText.shown path))
      | some dependencies => .ok (some dependencies)
  | _ => .ok none

/-- The dependencies of all manifests at the root, by ecosystem and name. A manifest that cannot be
read adds nothing. -/
def collect (disk : Disk τ) (root : τ) : Dictionary String :=
  .ofList <| Ecosystem.all.flatMap fun e =>
    match load disk root e with
    | .ok (some dependencies) => dependencies.map fun (name, spec) => (e.key name, spec)
    | _ => []

end

end Manifest

end SourceSurvey
