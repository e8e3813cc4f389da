import SourceSurvey.CommandLine.Run
import SourceSurvey.Glob.Room
import SourceSurvey.Regex.Standard

/-!
The command. It reads what its words refer to into memory, runs there, and writes the files that
are new or different.
-/

namespace SourceSurvey.Main

def timestampOf (time : IO.FS.SystemTime) : Timestamp := .ofEpoch time.sec time.nsec.toNat

/-- The present moment: that of a file made now. -/
def now : IO Timestamp := do
  let (_, path) ← IO.FS.createTempFile
  let metadata ← path.metadata
  IO.FS.removeFile path
  return timestampOf metadata.modified

/-- The result of an action, if it can be done. -/
def attempt {α : Type} (action : IO α) : IO (Option α) := do
  try return some (← action) catch _ => return none

/-- What has been read into memory, and the directories among it. -/
structure Memory where
  disk : Disk
  directories : List String := []

/-- Memory after a change of the disk, if that can be done. -/
def Memory.keep (m : Memory) (result : Except Disk.Failure Disk) : Memory :=
  { m with disk := result.toOption.getD m.disk }

/-- Read what is at a path into memory: a file, a directory with all that is below it, or a link
with what it leads to. -/
partial def load (m : Memory) (path : String) : IO Memory := do
  let some real ← attempt (IO.FS.realPath path) | return m
  let some metadata ← attempt real.metadata | return m
  if real.toString ≠ path then
    let m ← load m real.toString
    return m.keep (m.disk.makeLink path real.toString)
  match metadata.type with
  | .file =>
    let some bytes ← attempt (IO.FS.readBinFile path) | return m
    return m.keep (m.disk.write path bytes.toList (timestampOf metadata.modified))
  | .dir =>
    if m.directories.contains path then return m
    let mut m := { m.keep (m.disk.makeDirectories path) with
      directories := path :: m.directories }
    for item in ← real.readDir do
      m ← load m item.path.toString
    return m
  | _ => return m

/-- Read what is at a path into memory, with the directories above it. -/
def loadWithParents (m : Memory) (path : String) : IO Memory := do
  let parent := (Path.ancestors path).headD "/"
  let above := ((← attempt (IO.FS.realPath parent)).map (·.toString)).getD parent
  load (m.keep (m.disk.makeDirectories above)) path

/-- Write the files that the disk has and an earlier one had not, or had otherwise. -/
def save (before after : Disk) (paths : List String) : IO Unit := do
  for path in paths do
    match after.read path with
    | .error _ => pure ()
    | .ok bytes =>
      if (before.read path).toOption ≠ some bytes then
        for directory in (Path.ancestors path).head? do
          IO.FS.createDirAll directory
        IO.FS.writeBinFile path ⟨bytes.toArray⟩

/-- Run a command in a directory. -/
def run (directory : String) (words : List String) : IO UInt32 := do
  let absolute (path : String) : String :=
    Path.ofComponents ((Path.components (Path.join directory path)).filter (· ≠ .current))
  let disk : Disk := { Disk.empty with home := Path.pieces directory }
  let mut memory : Memory := { disk := (disk.makeDirectories directory).toOption.getD disk }
  let mut paths : List String := []
  if let .ok options := CommandLine.parse words then
    memory ← loadWithParents memory (absolute options.repoPath)
    for path in options.config do
      memory ← loadWithParents memory (absolute path)
    memory ← loadWithParents memory (absolute options.output)
    paths := Report.artifactNames.map (Path.join options.output)
  let (after, outcome) := CommandLine.run memory.disk words false (← now)
  save memory.disk after paths
  (← IO.getStdout).putStr outcome.stdout
  if let some message := outcome.diagnostic then (← IO.getStderr).putStrLn message
  return outcome.exitCode.toUInt32

end SourceSurvey.Main

def main (words : List String) : IO UInt32 := do
  SourceSurvey.Main.run (← IO.currentDir).toString words
