import SourceSurvey.Facts
import SourceSurvey.Text.Blank
import SourceSurvey.Script.Parse
import SourceSurvey.Syntax.Query

/-!
The facts about a script, read off its tree: what some queries capture, each list in the order of where
its texts begin.
-/

namespace SourceSurvey.Script

open Syntax Syntax.Tree

/-! ### Declarations -/

/-- The patterns for the names of types. -/
def typePatterns (dialect : Dialect) : List Pattern :=
  if dialect.typed then
    [⟨.classDeclaration, .name, .typeName, none⟩,
      ⟨.abstractClassDeclaration, .name, .typeName, none⟩,
      ⟨.interfaceDeclaration, .name, .typeName, none⟩,
      ⟨.typeAlias, .name, .typeName, none⟩,
      ⟨.enumDeclaration, .name, .identifier, none⟩]
  else [⟨.classDeclaration, .name, .identifier, none⟩]

/-- The kinds of values that are functions. -/
def functionKinds : List Kind := [.arrowFunction, .functionExpression]

/-- The patterns for the names of functions, of variables and properties that hold functions, and of
methods. -/
def callablePatterns : List Pattern :=
  [⟨.functionDeclaration, .name, .identifier, none⟩,
    ⟨.declarator, .name, .identifier, some functionKinds⟩,
    ⟨.methodDefinition, .name, .propertyName, none⟩,
    ⟨.pair, .key, .propertyName, some functionKinds⟩]

/-! ### Imports -/

/-- Quotation marks. -/
def isQuote (c : Char) : Bool := c = '"' || c = '\'' || c = '`'

/-- The content of a string: its text without the quotation marks at both ends. -/
def stringValue (t : Tree) : String := String.ofList (Text.trimBoth isQuote t.text.toList)

/-- The literals that the query for modules captures at a node: the source of an import statement, and
the arguments of a call whose function is the name "require". -/
def moduleLiterals (s : Site) : List Site :=
  match s.kind with
  | .importStatement => s.children.filter fun c => c.role = some .source && c.kind = .string
  | .call =>
    (s.children.filter fun c => c.role = some .function && c.kind = .identifier &&
        c.text = "require").flatMap fun _ =>
      (s.children.filter fun c => c.role = some .arguments && c.kind = .arguments).flatMap
        fun arguments => arguments.children.filter (·.kind = .string)
  | _ => []

/-- The modules that are imported at a node. -/
def importedAt (s : Site) : List (Nat × String) :=
  ((moduleLiterals s).map fun literal => (literal.start, stringValue literal.tree)).filter
    (·.2 ≠ "")

/-! ### Exports -/

/-- The names in a declaration: its own, or those of its variables. -/
def declaredNamesIn (declaration : Site) : List (Nat × String) :=
  match declaration.child? .name with
  | some name => [name.entry]
  | none => (declaration.children.filter (·.kind = .declarator)).filterMap fun declarator =>
    ((declarator.child? .name).filter (·.kind = .identifier)).map Site.entry

/-- The name of a value: a variable, or the name of a function or class. That of an empty element is in
its tag. -/
def nameOfValue? (value : Site) : Option Site :=
  match value.kind with
  | .identifier => some value
  | .element => (value.children.find? (·.kind = .openTag)).bind (·.child? .name)
  | _ => value.child? .name

/-- The names in an export list. -/
def namesInClause (clause : Site) : List (Nat × String) :=
  (clause.children.filter (·.kind = .exportSpecifier)).filterMap fun specifier =>
    (specifier.child? .name).map fun name => (name.start, stringValue name.tree)

/-- The names that an export statement exports. -/
def exportedBy (statement : Site) : List (Nat × String) :=
  match statement.child? .declaration, statement.child? .value with
  | some declaration, _ => declaredNamesIn declaration
  | none, some value => ((nameOfValue? value).map Site.entry).toList
  | none, none => (statement.children.filter (·.kind = .exportClause)).flatMap namesInClause

/-- The names that are exported at a node: by a statement, or by assigning a variable to
"module.exports". -/
def exportedAt (s : Site) : List (Nat × String) :=
  match s.kind with
  | .exportStatement => exportedBy s
  | .assignment =>
    (s.children.filter fun c => c.role = some .left && c.kind = .member &&
        c.text = "module.exports").flatMap fun _ =>
      (s.children.filter fun c => c.role = some .right && c.kind = .identifier).map Site.entry
  | _ => []

/-- The facts in the tree of a script. -/
def facts (dialect : Dialect) (t : Tree) : Facts :=
  let sites := t.sites 0 []
  { imports := inSourceOrder (sites.flatMap importedAt)
    types := inSourceOrder (captured (typePatterns dialect) t)
    callables := inSourceOrder (captured callablePatterns t)
    exports := inSourceOrder (sites.flatMap exportedAt)
    status := .parsed }

end SourceSurvey.Script
