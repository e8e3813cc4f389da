import SourceSurvey.Path.Text

/-!
Paths, and the names they are made of. Repeated slashes and inner dots do not count; two dots are
kept, since nothing is known about links.
-/

namespace SourceSurvey

namespace Path

inductive Component (τ : Type := String) where
  | root
  | current
  | parent
  | name (n : τ)
deriving Repr, DecidableEq

section

variable {τ : Type} [DecidableEq τ] [PathText τ]

open PathText (ofText startsWith endsWith append)

/-- The non-empty pieces between slashes. -/
def pieces (path : τ) : List τ := (PathText.split '/' path).filter (· ≠ ofText "")

/-- What a path is made of. A single dot counts only at the beginning of a relative path. -/
def components (path : τ) : List (Component τ) :=
  let named := (pieces path).filter (· ≠ ofText ".") |>.map fun p =>
    if p = ofText ".." then .parent else .name p
  if startsWith path "/" then .root :: named
  else if (PathText.split '/' path).head? = some (ofText ".") then .current :: named
  else named

/-- The last name, if the path ends in a name. -/
def fileName? (path : τ) : Option τ :=
  match (components path).getLast? with
  | some (.name n) => some n
  | _ => none

/-- A file name cut at its last dot, which must not be its first character. -/
def splitExtension (fileName : τ) : τ × Option τ :=
  let parts := PathText.split '.' fileName
  match parts.getLast? with
  | some ext =>
    let stem := PathText.intercalate "." parts.dropLast
    if stem = ofText "" then (fileName, none) else (stem, some ext)
  | none => (fileName, none)

/-- What follows the last dot of the file name. -/
def extension? (path : τ) : Option τ := do (splitExtension (← fileName? path)).2

/-- The file name without its extension. -/
def stem? (path : τ) : Option τ := do return (splitExtension (← fileName? path)).1

/-- The names in the path, joined by slashes. -/
def namesOnly (components : List (Component τ)) : String :=
  "/".intercalate (components.filterMap fun
    | .name n => some (PathText.shown n)
    | _ => none)

/-- A path as seen from `root`: its names after those of the root, or all of its names if it does
not begin with the root. -/
def relativeTo (root path : τ) : String :=
  let all := components path
  let below := (components root).isPrefixOf all
  namesOnly (if below then all.drop (components root).length else all)

/-- A path continued by another; an absolute path stands for itself. -/
def join (base path : τ) : τ :=
  if startsWith path "/" then path
  else if base = ofText "" ∨ endsWith base "/" then append base path
  else append (append base (ofText "/")) path

/-- Names joined by slashes. -/
def ofNames (names : List τ) : τ := PathText.intercalate "/" names

end

/-- A path made of these components. -/
def ofComponents (components : List Component) : String :=
  let texts := components.map fun
    | .root => ""
    | .current => "."
    | .parent => ".."
    | .name n => n
  if texts = [""] then "/" else "/".intercalate texts

/-- The paths to the directories above what a path leads to, the nearest first. The last of them is
the root or, for a relative path, the nearest below the place where it begins. -/
def ancestors (path : String) : List String :=
  let components := components path
  ((List.range components.length).drop 1).reverse.map fun count =>
    ofComponents (components.take count)

end Path

end SourceSurvey
