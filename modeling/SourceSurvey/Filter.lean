import SourceSurvey.Glob.Set
import SourceSurvey.Path

/-!
Which paths are left out of a survey: hidden entries, all that lies below directories with certain
names, and paths that match certain patterns.
-/

namespace SourceSurvey

structure Filter where
  /-- Names that no part of a path may have. -/
  names : List String
  /-- Patterns that no file name may match. -/
  fileNames : List Glob
  /-- Patterns that no path may match. -/
  paths : List Glob

namespace Filter

def defaultNames : List String :=
  ["node_modules", ".git", "__pycache__", ".venv", "venv", "dist", "build", ".next", ".nuxt",
    "target", "bin", "obj", ".DS_Store"]

/-- Any beginning, and this ending. -/
def ending (s : String) : Glob := ⟨.anyBytes :: Glob.plain s⟩

def defaultFileNames : List Glob := [ending ".pyc", ending ".class", ending ".o"]

/-- The default rules with further names and patterns for paths. -/
def withExtras [Glob.Engine] (names paths : List String) : Except Glob.SetError Filter := do
  return ⟨defaultNames ++ names, defaultFileNames, ← Glob.parseSet paths⟩

/-- Whether an entry is left out, by its path below the root. What has no name is not, nor is what
has a name that is no text. -/
def skips {τ : Type} [DecidableEq τ] [PathText τ] (f : Filter) (path : τ) : Bool :=
  match (Path.fileName? path).bind PathText.text? with
  | none => false
  | some base =>
    base.startsWith "." || f.fileNames.any (·.isMatch base) ||
      (Path.components path).any (fun
        | .name n => (PathText.text? n).any f.names.contains
        | _ => false) ||
      f.paths.any (·.isMatch path)

end Filter

end SourceSurvey
