import SourceSurvey.Disk.Basic
import SourceSurvey.Path
import SourceSurvey.Text.Utf8

/-!
Finding things by path. A path leads from the root through directories and the targets of links to
a place, which is given by the names on the direct way from the root.
-/

namespace SourceSurvey.Disk

/-- Why something cannot be done at a path. -/
inductive Failure where
  | notFound
  | alreadyExists
  | notDirectory
  | isDirectory
  | tooManyLinks
deriving Repr, DecidableEq

def Failure.message : Failure → String
  | notFound => "No such file or directory (os error 2)"
  | alreadyExists => "File exists (os error 17)"
  | notDirectory => "Not a directory (os error 20)"
  | isDirectory => "Is a directory (os error 21)"
  | tooManyLinks => "Too many levels of symbolic links (os error 40)"

section

variable {τ : Type} [DecidableEq τ] [PathText τ]

open PathText (ofText startsWith endsWith)

def stepOf (name : τ) : Path.Component τ :=
  if name = ofText "." then .current else if name = ofText ".." then .parent else .name name

/-- The steps that lead along a path. A slash at the end asks for a directory. -/
def steps (path : τ) : List (Path.Component τ) :=
  (Path.pieces path).map stepOf ++ if endsWith path "/" then [.current] else []

/-- How many links may be followed on the way. -/
def maxLinks : Nat := 40

variable [LT τ]

/-- Walk along steps from a directory, and leave it to `follow` to go on where a link leads. With
`new`, the last step may be to a name that is not there yet. -/
def walkSteps (disk : Disk τ) (new : Bool)
    (follow : List τ → List (Path.Component τ) → Except Failure (List τ)) (here : List τ) :
    List (Path.Component τ) → Except Failure (List τ)
  | [] => .ok here
  | step :: rest =>
    match disk.root.at? here with
    | some (.directory entries) =>
      match step with
      | .root => walkSteps disk new follow [] rest
      | .current => walkSteps disk new follow here rest
      | .parent => walkSteps disk new follow here.dropLast rest
      | .name name =>
        match entries.lookup name with
        | some (.link target) =>
          follow (if startsWith target "/" then [] else here) (steps target ++ rest)
        | some _ => walkSteps disk new follow (here ++ [name]) rest
        | none => if new ∧ rest = [] then .ok (here ++ [name]) else .error .notFound
    | _ => .error .notDirectory

/-- Walk along steps through at most `links` links. -/
def resolve (disk : Disk τ) (new : Bool) : (links : Nat) → List τ → List (Path.Component τ) →
    Except Failure (List τ)
  | 0 => walkSteps disk new fun _ _ => .error .tooManyLinks
  | links + 1 => walkSteps disk new (resolve disk new links)

/-- Where a path begins. -/
def startOf (disk : Disk τ) (path : τ) : List τ := if startsWith path "/" then [] else disk.home

/-- The place that a path leads to. -/
def locate (disk : Disk τ) (path : τ) : Except Failure (List τ) :=
  if path = ofText "" then .error .notFound
  else resolve disk false maxLinks (disk.startOf path) (steps path)

/-- What is at the place that a path leads to. -/
def find? (disk : Disk τ) (path : τ) : Option (Entry τ) :=
  match disk.locate path with
  | .ok place => disk.root.at? place
  | .error _ => none

def isFile (disk : Disk τ) (path : τ) : Bool :=
  match disk.find? path with
  | some (.file _ _) => true
  | _ => false

def isDirectory (disk : Disk τ) (path : τ) : Bool :=
  match disk.find? path with
  | some (.directory _) => true
  | _ => false

/-- The bytes of a file. -/
def read (disk : Disk τ) (path : τ) : Except Failure (List UInt8) := do
  let place ← disk.locate path
  match disk.root.at? place with
  | some (.file bytes _) => return bytes
  | some (.directory _) => throw .isDirectory
  | _ => throw .notFound

/-- A place as a path. -/
def pathOf (place : List τ) : τ := PathText.append (ofText "/") (Path.ofNames place)

end

end SourceSurvey.Disk
