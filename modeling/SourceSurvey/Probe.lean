import SourceSurvey.Disk.Lookup
import SourceSurvey.Filter
import SourceSurvey.Language

/-!
Files of a project that are worth knowing by name: where programs begin, what configures them and
what documents them.
-/

namespace SourceSurvey.Probe

/-- Files that programs commonly begin in. -/
def entryPointCandidates : List String :=
  ["main.py", "app.py", "manage.py", "index.js", "server.js", "main.js", "index.ts", "main.ts",
    "App.js", "App.tsx", "index.html", "main.go", "src/main.rs", "src/index.js", "src/index.ts",
    "src/main.ts"]

/-- The candidates that are files and not left out. -/
def entryPoints {τ : Type} [DecidableEq τ] [LT τ] [PathText τ] (disk : Disk τ) (root : τ)
    (filter : Filter) : List String :=
  entryPointCandidates.filter fun path =>
    !filter.skips path && disk.isFile (Path.join root (PathText.ofText path))

/-- Names of files that configure a project, in lower case. -/
def configNames : List Glob :=
  let wholes := ["package.json", "requirements.txt", "pipfile", "pom.xml", "build.gradle",
    "cargo.toml", "composer.json", "setup.py", "go.mod", "pyproject.toml"]
  let beginnings := ["config.", "settings.", "docker", "webpack.config.", "vite.config.",
    "next.config."]
  wholes.map (fun s => ⟨Glob.plain s⟩) ++ beginnings.map (fun s => ⟨Glob.plain s ++ [.anyBytes]⟩) ++
    [⟨.anyBytes :: Glob.plain ".config." ++ [.anyBytes]⟩]

/-- What follows the last slash. -/
def baseName (path : String) : String := (Path.split '/' path).getLastD path

def configPaths (walked : List String) : List String :=
  walked.filter fun path =>
    configNames.any (·.isMatch (Language.lowered (baseName path)))

def maxDocs : Nat := 10

def isDoc (path : String) : Bool :=
  ((Path.extension? (baseName path)).map Language.lowered) = some "md"

def docPaths (walked : List String) : List String := (walked.filter isDoc).take maxDocs

end SourceSurvey.Probe
