import SourceSurvey.Facts
import SourceSurvey.Python.Parse
import SourceSurvey.Syntax.Query

/-!
The facts about a Python file, read off its tree: what some queries capture, each list in the order of
where its texts begin.
-/

namespace SourceSurvey.Python

open Syntax Syntax.Tree

/-- The pattern for the names of definitions of a kind. -/
def definitionPattern (kind : Kind) : Pattern := ⟨kind, .name, .identifier, none⟩

/-- The name in an import list, without the name that it gets. -/
def importedName (t : Tree) : String :=
  if t.kind = .aliasedImport then ((t.child? .name).map (·.text)).getD "" else t.text

/-- The first name that a statement imports from a module, or a star if it imports all. -/
def firstImported? (t : Tree) : Option String :=
  match t.child? .name with
  | some name => some (importedName name)
  | none => if t.children.any (·.kind = .wildcard) then some "*" else none

/-- The first name imported from a module, behind the name of the module without the points before
it. Points alone name no module. -/
def importedFrom? (t : Tree) : Option String := do
  let module := (← t.child? .moduleName).text.toList.dropWhile (· = '.')
  if module.isEmpty then none
  else some (String.ofList module ++ "." ++ (firstImported? t).getD "")

/-- What is imported at a node: each module of an import statement where its name begins, and what a
statement imports from a module where the statement begins. -/
def importedAt (s : Site) : List (Nat × String) :=
  match s.kind with
  | .importStatement =>
    ((s.children.filter (·.role = some .name)).map fun name =>
      (name.start, importedName name.tree)).filter (·.2 ≠ "")
  | .importFrom => ((importedFrom? s.tree).map (s.start, ·)).toList
  | .importFuture => ((firstImported? s.tree).map fun name => (s.start, "__future__." ++ name)).toList
  | _ => []

/-- The facts in the tree of a Python file. -/
def facts (t : Tree) : Facts where
  imports := inSourceOrder ((t.sites 0 []).flatMap importedAt)
  types := inSourceOrder (captured [definitionPattern .classDefinition] t)
  callables := inSourceOrder (captured [definitionPattern .functionDefinition] t)
  status := .parsed

end SourceSurvey.Python
