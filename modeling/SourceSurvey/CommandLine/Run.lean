import SourceSurvey.CommandLine.Options
import SourceSurvey.Report.Artifacts

/-!
What a command does: it surveys a project, writes the results and says how it went.
-/

namespace SourceSurvey.CommandLine

/-- What a command leaves behind besides files. -/
structure Outcome where
  exitCode : Nat
  stdout : String := ""
  /-- What went wrong. -/
  diagnostic : Option String := none
deriving Repr, DecidableEq

/-- A text between the signs that switch a style on and off, if there are to be styles. -/
def styled (colored : Bool) (style text : String) : String :=
  if colored then "\x1b[" ++ style ++ "m" ++ text ++ "\x1b[0m" else text

def bold : String := "1"
def dimmed : String := "2"
def cyan : String := "36"
def boldGreen : String := "1;32"

/-- What is said at the end of a survey. -/
def completion (colored : Bool) (s : Summary) (output : String) (written : List String) :
    List String :=
  ["  " ++ styled colored boldGreen "✓" ++ " Analysis complete! Found " ++
      styled colored bold (toString s.fileCount) ++ " files across " ++
      styled colored bold (toString s.languages.size) ++ " languages.",
    "  " ++ styled colored dimmed "Output: " ++ output] ++
  written.map fun path => "    " ++ styled colored cyan ((Path.fileName? path).getD "")

def versionText : String := "codebase-analyzer 0.1.0"

def helpLines : List String :=
  ["Analyze a repository and write a resumable context for AI-assisted development.",
    "",
    "Usage: codebase-analyzer [OPTIONS] <REPO_PATH>",
    "",
    "Arguments:",
    "  <REPO_PATH>  Path to the repository to analyze",
    "",
    "Options:",
    "  -o, --output <OUTPUT>  Output directory for analysis results [default: ai_analysis]",
    "      --summary-only     Write only the AI summary file",
    "  -c, --config <CONFIG>  Path to config YAML file (default: auto-discover in the repository)",
    "  -v, --verbose          Log per-file progress",
    "  -q, --quiet            Only log warnings and errors",
    "  -h, --help             Print help",
    "  -V, --version          Print version"]

def usageExitCode : Nat := 2

def refused : Refusal → Outcome
  | .help => { exitCode := 0, stdout := Report.ofLines helpLines }
  | .version => { exitCode := 0, stdout := Report.ofLines [versionText] }
  | r => { exitCode := usageExitCode, diagnostic := some ("error: " ++ r.message) }

def failed (message : String) : Outcome :=
  { exitCode := 1, diagnostic := some ("Error: " ++ message) }

/-- Do what the options ask for. -/
def execute [Regex.Engine] [Glob.Engine] (disk : Disk) (o : Options) (colored : Bool)
    (now : Timestamp) : Disk × Outcome :=
  match Survey.runWith disk o.repoPath o.config now with
  | .error e => (disk, failed e.message)
  | .ok survey =>
    match Report.write disk o.output survey o.summaryOnly now with
    | (disk, .error e) => (disk, failed e.message)
    | (disk, .ok written) =>
      (disk,
        { exitCode := 0
          stdout := Report.ofLines (completion colored survey.summary o.output written) })

/-- Do what the words of a command ask for. -/
def run [Regex.Engine] [Glob.Engine] (disk : Disk) (words : List String) (colored : Bool)
    (now : Timestamp) : Disk × Outcome :=
  match parse words with
  | .error r => (disk, refused r)
  | .ok o => execute disk o colored now

end SourceSurvey.CommandLine
