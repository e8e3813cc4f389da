import SourceSurvey.Config.Load
import SourceSurvey.Context
import SourceSurvey.Disk.Walk
import SourceSurvey.Survey.Rules

/-!
A survey of a project: the records of its files, a summary of all of them, and the context that
follows from both.
-/

namespace SourceSurvey

structure Survey where
  records : List Record
  summary : Summary
  context : Context

namespace Survey

/-- Why there is no survey. -/
inductive Failure where
  | missingRoot (path : String)
  | notADirectory (path : String)
  | config (e : Config.LoadFailure)
  | rules (e : Rules.Fault)
deriving Repr, DecidableEq

def Failure.message : Failure → String
  | missingRoot path => "repository path '" ++ path ++ "' does not exist"
  | notADirectory path => "repository path '" ++ path ++ "' is not a directory"
  | config e => e.message
  | rules e => e.message

section

variable {τ : Type} [DecidableEq τ] [LT τ] [PathText τ]

/-- The place of the root, which must be a directory. -/
def rootPlace (disk : Disk τ) (root : τ) : Except Failure (List τ) := do
  match disk.locate root with
  | .error _ => throw (.missingRoot (PathText.shown root))
  | .ok place =>
    match disk.root.at? place with
    | some (.directory _) => return place
    | some _ => throw (.notADirectory (PathText.shown root))
    | none => throw (.missingRoot (PathText.shown root))

/-- The path of a file as it is put into records: its names joined by slashes. -/
def relativePath (found : Disk.Found τ) : String := PathText.shown (Path.ofNames found.names)

/-- The files below a place that the filter lets through. -/
def walk (disk : Disk τ) (filter : Filter) (place : List τ) : List (Disk.Found τ) :=
  disk.walk (fun names => filter.skips (Path.ofNames names)) place

/-- Survey the project at a place by some rules. -/
def ofPlace [Regex.Engine] (disk : Disk τ) (place : List τ) (rules : Rules)
    (thresholds : Thresholds) (timestamp : Timestamp) : Survey :=
  let root := Disk.pathOf place
  let walked := walk disk rules.filter place
  let accepted := walked.filter fun found => rules.accepts (Path.ofNames found.names)
  let records := accepted.map fun found =>
    rules.record (Path.ofNames found.names) found.bytes found.modified
  let summary := Summary.aggregate disk root rules.filter (walked.map relativePath) records
    (accepted.flatMap fun found => rules.frameworks found.bytes)
  ⟨records, summary, Context.synthesize records summary thresholds timestamp⟩

/-- Survey the project at a root with the given settings. -/
def run [Regex.Engine] [Glob.Engine] (disk : Disk τ) (root : τ) (config : Config)
    (timestamp : Timestamp) : Except Failure Survey := do
  let place ← rootPlace disk root
  let rules ← (Rules.ofConfig config).mapError .rules
  return ofPlace disk place rules config.thresholds timestamp

end

/-- Survey the project at a root with the settings in a file, in one at the root or by default. -/
def runWith [Regex.Engine] [Glob.Engine] (disk : Disk) (root : String)
    (configPath : Option String) (timestamp : Timestamp) : Except Failure Survey := do
  if (disk.find? root).isNone then throw (.missingRoot root)
  let config ← (Config.load disk configPath root).mapError .config
  run disk root config timestamp

end Survey

end SourceSurvey
