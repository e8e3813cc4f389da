import SourceSurvey.Disk.Lookup

/-!
Writing files and making directories. Links on the way are followed.
-/

namespace SourceSurvey.Disk

/-- Write a file, in place of one that is there. -/
def write (disk : Disk) (path : String) (bytes : List UInt8) (modified : Timestamp) :
    Except Failure Disk := do
  if path.isEmpty then throw .notFound
  if path.endsWith "/" then throw .isDirectory
  let place ← resolve disk true maxLinks (disk.startOf path) (steps path)
  match disk.root.at? place with
  | some (.directory _) => throw .isDirectory
  | _ => return disk.put place (.file bytes modified) trivial

/-- Make a directory where nothing is, in a directory that is there. -/
def makeDirectory (disk : Disk) (path : String) : Except Failure Disk := do
  let pieces := Path.pieces path
  let parent ← resolve disk false maxLinks (disk.startOf path) (pieces.dropLast.map stepOf)
  match disk.root.at? parent, pieces.getLast? with
  | some (.directory entries), some name =>
    if (entries.lookup name).isSome || !decide (IsName name) then throw .alreadyExists
    else return disk.put (parent ++ [name]) (.directory []) Entry.wellFormed_empty
  | some (.directory _), none => throw (if path.isEmpty then .notFound else .alreadyExists)
  | _, _ => throw .notDirectory

/-- Make a directory at the first of some paths, each of which leads to a directory just below that
of the next. What has been made stays if the rest fails. -/
def makeAll (disk : Disk) : (paths : List String) → Disk × Except Failure Unit
  | [] => (disk, .ok ())
  | path :: above =>
    match disk.makeDirectory path with
    | .ok disk => (disk, .ok ())
    | .error .notFound =>
      match makeAll disk above with
      | (disk, .error e) => (disk, .error e)
      | (disk, .ok ()) =>
        match disk.makeDirectory path with
        | .ok disk => (disk, .ok ())
        | .error e => (disk, if disk.isDirectory path then .ok () else .error e)
    | .error e => (disk, if disk.isDirectory path then .ok () else .error e)

/-- Make a directory and those above it, as far as they are missing. The result is what is on the
disk afterwards, also if not all of them can be made. -/
def ensureDirectory (disk : Disk) (path : String) : Disk × Except Failure Unit :=
  if path.isEmpty then (disk, .ok ()) else disk.makeAll (path :: Path.ancestors path)

/-- The disk with a directory and those above it, if they can be made. -/
def makeDirectories (disk : Disk) (path : String) : Except Failure Disk :=
  match disk.ensureDirectory path with
  | (disk, .ok ()) => .ok disk
  | (_, .error e) => .error e

/-- The place of an entry itself: if it is a link, that of the link and not of its target. -/
def placeOf (disk : Disk) (path : String) : Except Failure (List String) := do
  let pieces := Path.pieces path
  let parent ← resolve disk false maxLinks (disk.startOf path) (pieces.dropLast.map stepOf)
  return parent ++ pieces.getLast?.toList

/-- Make a link, in place of a file or link that is there. -/
def makeLink (disk : Disk) (path target : String) : Except Failure Disk := do
  return disk.put (← disk.placeOf path) (.link target) trivial

/-- Remove a file, a link, or a directory with all that lies below it. -/
def removeAll (disk : Disk) (path : String) : Except Failure Disk := do
  let place ← disk.placeOf path
  if (disk.root.at? place).isNone then throw .notFound
  return disk.remove place

end SourceSurvey.Disk
