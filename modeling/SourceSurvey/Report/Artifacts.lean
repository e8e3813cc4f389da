import SourceSurvey.Context.Json
import SourceSurvey.Disk.Update
import SourceSurvey.Json.Printer
import SourceSurvey.Report.Narrative
import SourceSurvey.Summary.Json
import SourceSurvey.Survey

/-!
The files that a survey leaves behind.
-/

namespace SourceSurvey.Report

/-- Why the files could not be written, all of them or those from some file on. -/
inductive WriteFailure where
  | creating (path : String) (cause : Disk.Failure)
  | writing (path : String) (cause : Disk.Failure)
deriving Repr, DecidableEq

def WriteFailure.message : WriteFailure → String
  | creating path cause => "creating " ++ path ++ ": " ++ cause.message
  | writing path cause => "writing " ++ path ++ ": " ++ cause.message

/-- The names and texts of the files: records, summary and context for machines, and a narrative for
readers. -/
def artifacts (survey : Survey) (summaryOnly : Bool) : List (String × String) :=
  (if summaryOnly then []
    else
      [("files_analysis.json", (Json.arr (survey.records.map Record.toJson)).pretty),
        ("project_structure.json", survey.summary.toJson.pretty),
        ("ai_context.json", survey.context.toJson.pretty)]) ++
    [("ai_summary.md", narrative survey.context)]

/-- The names of all files that a survey can leave behind. -/
def artifactNames : List String :=
  ["files_analysis.json", "project_structure.json", "ai_context.json", "ai_summary.md"]

/-- Write files into a directory one after the other. A failure leaves those before it written. -/
def writeFiles (directory : String) (now : Timestamp) :
    List (String × String) → Disk → Disk × Except WriteFailure (List String)
  | [], disk => (disk, .ok [])
  | (name, text) :: rest, disk =>
    let path := Path.join directory name
    match disk.write path (Text.toBytes text) now with
    | .error cause => (disk, .error (.writing path cause))
    | .ok disk =>
      match writeFiles directory now rest disk with
      | (disk, .ok written) => (disk, .ok (path :: written))
      | (disk, .error e) => (disk, .error e)

/-- Write the files of a survey into a directory, which is made if it is missing. The result is what
is on the disk afterwards, and the paths of the files. -/
def write (disk : Disk) (directory : String) (survey : Survey) (summaryOnly : Bool)
    (now : Timestamp) : Disk × Except WriteFailure (List String) :=
  match disk.ensureDirectory directory with
  | (disk, .error cause) => (disk, .error (.creating directory cause))
  | (disk, .ok ()) => writeFiles directory now (artifacts survey summaryOnly) disk

end SourceSurvey.Report
