import SourceSurvey.Config
import SourceSurvey.Report.Overview
import SourceSurvey.Text.Case

/-!
What is worth remembering of a survey: a digest of the records and the summary with which work on
the project can be taken up again.
-/

namespace SourceSurvey

namespace Context

structure TechnicalStack where
  languages : Dictionary Nat
  frameworks : NameSet
  dependencies : Dictionary String
deriving DecidableEq

/-- A record in short. -/
structure Component where
  name : String
  path : String
  language : Language
  complexity : Nat
  lines : Nat
  classes : List String
  functions : List String
  keyPatterns : List Tag
deriving DecidableEq

/-- The value of a tag and the file it is in. -/
structure SourcedTag where
  value : String
  sourcePath : String
  language : Language
deriving DecidableEq

/-- Which parts of the work are done. -/
structure Progress where
  structureAnalyzed : Bool
  dependenciesExtracted : Bool
  patternsIdentified : Bool
  componentsMapped : Bool
deriving DecidableEq

def Progress.complete : Progress := ⟨true, true, true, true⟩

end Context

structure Context where
  overview : String
  stack : Context.TechnicalStack
  architecture : List String
  keyComponents : List Context.Component
  endpoints : List Context.SourcedTag
  models : List Context.SourcedTag
  uiComponents : List Context.SourcedTag
  externalServices : List String
  criticalFiles : List String
  entryPoints : List String
  timestamp : Timestamp
  progress : Context.Progress
deriving DecidableEq

namespace Context

def maxKeyComponents : Nat := 15
def maxCriticalFiles : Nat := 10
def maxEndpoints : Nat := 20
def maxModels : Nat := 15
def maxUiComponents : Nat := 20
def maxDependencies : Nat := 20

def Component.ofRecord (r : Record) : Component where
  name := (Path.stem? r.path).getD r.path
  path := r.path
  language := r.language
  complexity := r.complexity
  lines := r.lineCount
  classes := r.types.take 5
  functions := r.callables.take 10
  keyPatterns := r.tags.take 5

/-- Parts of paths, in lower case, and the architecture that they hint at. -/
def architectureHints : List (String × String) :=
  [("models", "Model-View Architecture"), ("controller", "MVC Pattern"),
    ("service", "Service Layer Pattern"), ("component", "Component-Based Architecture")]

def containsText (needle text : String) : Bool := Text.hasInfix needle.toList text.toList

/-- The architectures that the paths hint at. -/
def architecturesOf (records : List Record) : List String :=
  let paths := records.map fun r => Text.lower r.path
  (architectureHints.filter fun (hint, _) => paths.any (containsText hint)).map (·.2)

/-- Parts of the names of packages that talk to a network. -/
def serviceHints : List String := ["api", "http", "request", "axios", "fetch"]

/-- What follows the first colon, or all of the text. -/
def packageName (key : String) : String :=
  match key.toList.dropWhile (· ≠ ':') with
  | _ :: name => String.ofList name
  | [] => key

/-- The dependencies whose names hint at a service. -/
def servicesAmong (dependencies : Dictionary String) : List String :=
  dependencies.keys.filter fun key =>
    let name := Text.lower (packageName key)
    serviceHints.any (containsText · name)

/-- The first tags of a category, in the order of the records. -/
def sourcedTags (records : List Record) (category : Tag.Category) (limit : Nat) :
    List SourcedTag :=
  (records.flatMap fun r =>
    (r.tags.filter (·.category = category)).map fun t =>
      ⟨t.value, r.path, r.language⟩).take limit

def synthesize (records : List Record) (s : Summary) (thresholds : Thresholds)
    (timestamp : Timestamp) : Context where
  overview := Report.overview records s thresholds.overview
  stack := ⟨s.languages, s.frameworks, s.dependencies.take maxDependencies⟩
  architecture := architecturesOf records
  keyComponents :=
    ((Record.rankedAbove records thresholds.keyComponent).take maxKeyComponents).map
      Component.ofRecord
  endpoints := sourcedTags records .endpoint maxEndpoints
  models := sourcedTags records .persistenceModel maxModels
  uiComponents := sourcedTags records .uiComponent maxUiComponents
  externalServices := servicesAmong s.dependencies
  criticalFiles :=
    ((Record.rankedAbove records thresholds.critical).take maxCriticalFiles).map (·.path)
  entryPoints := s.entryPoints
  timestamp := timestamp
  progress := .complete

end Context

end SourceSurvey
