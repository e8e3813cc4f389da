import SourceSurvey.Summary

/-!
The overview of a project: statistics, frameworks, structure, dependencies and its most complex
files, line by line.
-/

namespace SourceSurvey.Report

/-- Digits in groups of three with commas between the groups. -/
def grouped (digits : List Char) : List Char :=
  match digits with
  | [] => []
  | d :: rest =>
    d :: if rest.length % 3 = 0 ∧ rest ≠ [] then ',' :: grouped rest else grouped rest

def withThousands (n : Nat) : String := String.ofList (grouped (Nat.toDigits 10 n))

def listOr (items : List String) (fallback : String) : String :=
  if items.isEmpty then fallback else ", ".intercalate items

def languageCount (language : String) (count : Nat) : String :=
  language ++ " (" ++ toString count ++ " files)"

/-- The languages with the most files; those with the same number by name. -/
def topLanguages (s : Summary) (limit : Nat) : List String :=
  ((s.languages.entries.mergeSort fun a b => b.2 ≤ a.2).take limit).map fun (language, count) =>
    languageCount language count

def recordLines (r : Record) : List String :=
  ("- **" ++ r.path ++ "** (" ++ r.language.name ++ ", " ++ toString r.lineCount ++
      " lines, complexity: " ++ toString r.complexity ++ ")") ::
    if r.tags.isEmpty then []
    else ["  - Key patterns: " ++ ", ".intercalate ((r.tags.take 3).map Tag.display)]

def overviewLines (records : List Record) (s : Summary) (threshold : Nat) : List String :=
  ["# Project Analysis: " ++ s.name,
    "",
    "## Project Statistics",
    "- **Total Files**: " ++ toString s.fileCount,
    "- **Total Lines of Code**: " ++ withThousands s.totalLines,
    "- **Primary Languages**: " ++ ", ".intercalate (topLanguages s 5),
    "",
    "## Detected Frameworks & Technologies",
    listOr s.frameworks.keys "No specific frameworks detected",
    "",
    "## Project Structure",
    "- **Entry Points**: " ++ listOr s.entryPoints "Not clearly identified",
    "- **Configuration Files**: " ++ toString s.configPaths.length ++ " config files found",
    "- **Documentation Files**: " ++ toString s.docPaths.length ++ " documentation files",
    "",
    "## Key Dependencies"] ++
  (if s.dependencies.isEmpty then ["No dependencies file found"]
    else (s.dependencies.keys.take 10).map ("- " ++ ·)) ++
  ["",
    "## Critical Files (High Complexity)"] ++
  ((Record.rankedAbove records threshold).take 10).flatMap recordLines

/-- Lines as text, each of them ended. -/
def ofLines (lines : List String) : String := String.join (lines.map (· ++ "\n"))

def overview (records : List Record) (s : Summary) (threshold : Nat) : String :=
  ofLines (overviewLines records s threshold)

end SourceSurvey.Report
