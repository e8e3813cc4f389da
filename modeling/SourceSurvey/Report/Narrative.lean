import SourceSurvey.Context

/-!
The summary of a context in words, for a reader who takes up the work.
-/

namespace SourceSurvey.Report

open Context (Component SourcedTag)

def componentLines (c : Component) : List String :=
  ["**" ++ c.name ++ "** (`" ++ c.path ++ "`)",
    "- Type: " ++ c.language.name ++ ", Complexity: " ++ toString c.complexity ++ ", Lines: " ++
      toString c.lines,
    "- Key functions: " ++ ", ".intercalate (c.functions.take 5)] ++
  (if c.classes.isEmpty then [] else ["- Key classes: " ++ ", ".intercalate (c.classes.take 3)]) ++
  [""]

/-- A list of tags under a heading, left out if there are none. -/
def tagLines (title : String) (limit : Nat) (tags : List SourcedTag) : List String :=
  if tags.isEmpty then []
  else ["", "### " ++ title] ++
    (tags.take limit).map fun t => "- `" ++ t.value ++ "` (in " ++ t.sourcePath ++ ")"

def narrativeLines (c : Context) : List String :=
  let architecture := listOr c.architecture "none inferred"
  ["# AI Codebase Context",
    "",
    c.overview,
    "## Technical Stack Summary",
    "**Languages**: " ++ ", ".intercalate (c.stack.languages.entries.map fun (language, count) =>
      languageCount language count),
    "**Frameworks**: " ++ listOr c.stack.frameworks.keys "none detected",
    "**Architecture Patterns**: " ++ architecture,
    "",
    "## Critical Components for AI Understanding",
    "",
    "### Top Priority Files (High Complexity)"] ++
  (c.keyComponents.take 5).flatMap componentLines ++
  tagLines "API Endpoints Discovered" 10 c.endpoints ++
  tagLines "Database Models" 8 c.models ++
  tagLines "UI Components" 10 c.uiComponents ++
  ["",
    "## External Dependencies & Services"] ++
  (c.stack.dependencies.keys.take 15).map ("- " ++ ·) ++
  (if c.externalServices.isEmpty then []
    else ["", "**Network-facing services**: " ++ ", ".intercalate c.externalServices]) ++
  ["",
    "## For AI Development Tasks:",
    "1. **Start with these critical files**: " ++
      listOr (c.criticalFiles.take 5) "none above the critical threshold",
    "2. **Main architecture patterns**: " ++ architecture,
    "3. **Entry points to understand**: " ++
      listOr c.entryPoints "Check project structure for main files",
    "4. **Key integration points**: API endpoints and database models listed above",
    "",
    "---",
    "*Analysis completed: " ++ c.timestamp.textWith "+00:00" ++ "*",
    "*This context is designed to be resumable - save this file to maintain context across AI " ++
      "conversations.*"]

def narrative (c : Context) : String := ofLines (narrativeLines c)

end SourceSurvey.Report
