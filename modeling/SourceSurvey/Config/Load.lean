import SourceSurvey.Config.Yaml
import SourceSurvey.Disk.Lookup

/-!
Finding and reading the settings for a survey.
-/

namespace SourceSurvey.Config

/-- Files at the root of a project that may hold its settings. -/
def fileNames : List String := ["codebase-analyzer.yaml", ".codebase-analyzer.yaml"]

/-- Why there are no settings. -/
inductive LoadFailure where
  /-- The file is missing or does not hold settings. -/
  | unreadable (path : String)
  | invalid (fault : Fault)
deriving Repr, DecidableEq

def LoadFailure.message : LoadFailure → String
  | unreadable path => "parsing config " ++ path
  | invalid fault => fault.message

/-- The file of settings at the root, if there is one. -/
def discover? (disk : Disk) (root : String) : Option String :=
  (fileNames.map (Path.join root)).find? disk.isFile

def readFile (disk : Disk) (path : String) : Except LoadFailure Config :=
  match disk.read path with
  | .error _ => .error (.unreadable path)
  | .ok bytes =>
    match ((Text.ofBytes? bytes).bind Yaml.parse?).bind ofYaml? with
    | some config => .ok config
    | none => .error (.unreadable path)

/-- The settings in the given file, else those at the root, else the default ones. They must be
valid. -/
def load [Regex.Engine] (disk : Disk) (given : Option String) (root : String) :
    Except LoadFailure Config := do
  let config ← match given.or (discover? disk root) with
    | some path => readFile disk path
    | none => .ok {}
  config.validate.mapError .invalid
  return config

end SourceSurvey.Config
