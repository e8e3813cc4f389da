import SourceSurvey.Disk.Lookup

/-!
All files below a directory. A walk goes through the entries of each directory in order, leaves out
what it is told to skip and follows links, though never to a directory that it is already in.
-/

namespace SourceSurvey.Disk

/-- A file that a walk comes upon. -/
structure Found (τ : Type := String) where
  /-- The names on the way from the beginning of the walk. -/
  names : List τ
  bytes : List UInt8
  modified : Timestamp

/-- Where a walk is. -/
structure Visit (τ : Type := String) where
  /-- The names on the way from the beginning of the walk. -/
  names : List τ
  /-- The place that they lead to. -/
  place : List τ
  /-- The places of the directories on the way. -/
  above : List (List τ)

section

variable {τ : Type}

def Visit.child (v : Visit τ) (name : τ) : Visit τ := ⟨v.names ++ [name], v.place ++ [name], v.above⟩

mutual

/-- The files below an entry; `follow` gives those that a link leads to. -/
def filesBelow (skip : List τ → Bool) (follow : Visit τ → List (Found τ)) (v : Visit τ) :
    Entry τ → List (Found τ)
  | .file bytes modified => [⟨v.names, bytes, modified⟩]
  | .link _ => follow v
  | .directory entries => filesAmong skip follow { v with above := v.place :: v.above } entries

def filesAmong (skip : List τ → Bool) (follow : Visit τ → List (Found τ)) (v : Visit τ) :
    List (τ × Entry τ) → List (Found τ)
  | [] => []
  | (name, e) :: rest =>
    (if skip (v.child name).names then [] else filesBelow skip follow (v.child name) e) ++
      filesAmong skip follow v rest

end

mutual

def Entry.directoryCount : Entry τ → Nat
  | .directory entries => directoryCounts entries + 1
  | _ => 0

def directoryCounts : List (τ × Entry τ) → Nat
  | [] => 0
  | (_, e) :: rest => e.directoryCount + directoryCounts rest

end

variable [DecidableEq τ] [LT τ] [PathText τ]

/-- The files that a link leads to, when at most `hops` links to directories may be followed on a
way. -/
def filesBehind (disk : Disk τ) (skip : List τ → Bool) (start : List τ) :
    (hops : Nat) → Visit τ → List (Found τ)
  | 0, _ => []
  | hops + 1, v =>
    match resolve disk false maxLinks start (v.names.map .name) with
    | .error _ => []
    | .ok place =>
      match disk.root.at? place with
      | some (.file bytes modified) => [⟨v.names, bytes, modified⟩]
      | some (.directory entries) =>
        if v.above.contains place then []
        else filesBelow skip (filesBehind disk skip start hops) { v with place }
          (.directory entries)
      | _ => []

/-- The files below the directory at a place. Since a way leads through each directory at most once
by a link, no more links are followed than there are directories. -/
def walk (disk : Disk τ) (skip : List τ → Bool) (start : List τ) : List (Found τ) :=
  match disk.root.at? start with
  | some (.directory entries) =>
    filesBelow skip (filesBehind disk skip start (disk.root.directoryCount + 1)) ⟨[], start, []⟩
      (.directory entries)
  | _ => []

end

end SourceSurvey.Disk
