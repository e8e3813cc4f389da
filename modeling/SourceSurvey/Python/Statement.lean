import SourceSurvey.Python.Expression

/-!
Statements: simple ones, which share lines, and compound ones, which hold blocks.
-/

namespace SourceSurvey.Python.Form

open Syntax

/-! ### Imports -/

def dottedName : Form := .node .dottedName (.separated (operator ".") identifier)

def importedName : Form :=
  .within .name (.choice
    [.node .aliasedImport (.sequence [.within .name dottedName, onward (word "as"), identifier]),
      dottedName])

def importedNames : Form := .choice [round (items importedName), items importedName]

def importStatement : Form :=
  .node .importStatement (.sequence [word "import", items importedName])

def importFuture : Form :=
  .node .importFuture (.sequence [word "from", word "__future__", word "import", importedNames])

def importFrom : Form :=
  let module := Rule.choice
    [.node .group (.sequence [.many1 (.terminal .dot),
      .optional (.sequence [.without (word "import"), dottedName])]),
      .sequence [.without (word "__future__"), dottedName]]
  let all := Rule.node .wildcard (operator "*")
  .node .importFrom (.sequence [word "from", .within .moduleName module, word "import",
    .choice [all, importedNames]])

/-! ### Simple statements -/

def type : Form :=
  .choice [.sequence [.terminal (.anyOperator ["*", "**"]), identifier], call .expression]

def augmentedOperators : List String :=
  ["+=", "-=", "*=", "/=", "@=", "//=", "%=", "**=", ">>=", "<<=", "&=", "^=", "|="]

def assignment : Form :=
  let value := Rule.choice [call .assignment, yieldExpression, expressionList]
  .node .assignment (.sequence [items (call .pattern), onward (.choice
    [.sequence [operator "=", value],
      .sequence [operator ":", type, .optional (onward (.sequence [operator "=", value]))],
      .sequence [.terminal (.anyOperator augmentedOperators), value]])])

/-- The words that begin other statements than expressions. -/
def statementWords : List String :=
  ["import", "from", "assert", "return", "del", "raise", "pass", "break", "continue", "global",
    "nonlocal", "if", "for", "while", "try", "with", "def", "class"]

def simpleEnd : Form := .ahead (.choice [operator ";", .terminal .newline])

def expressionStatement : Form :=
  .sequence [.without (oneWord statementWords),
    .choice [call .assignment, yieldExpression, expressionList], simpleEnd]

def printStatement : Form :=
  .sequence [word "print", onward (.choice
    [.sequence [operator ">>", call .expression,
      .many (.sequence [onward (operator ","), onward (call .expression)]),
      .optional (onward (operator ","))],
      expressionList])]

def simpleStatement : Form :=
  .choice
    [importFuture,
      importStatement,
      importFrom,
      oneWord ["pass", "break", "continue"],
      .node .group (.sequence [word "return", .optional (onward expressionList)]),
      .node .group (.sequence [word "assert", items (call .expression)]),
      .node .group (.sequence [word "del", expressionList]),
      .node .group (.sequence [word "raise", .optional (onward expressionList),
        .optional (onward (.sequence [word "from", call .expression]))]),
      .node .group (.sequence [oneWord ["global", "nonlocal"], listed identifier]),
      .node .group (.sequence [word "type", onward type, onward (operator "="), type, simpleEnd]),
      expressionStatement,
      .node .group printStatement,
      .node .group (.sequence [word "exec", onward (.choice [strings, identifier]),
        .optional (onward (.sequence [word "in", listed (call .expression)]))])]

def simpleStatements : Form :=
  .sequence [simpleStatement, .many (.sequence [operator ";", onward simpleStatement]),
    .optional (operator ";"), .terminal .newline]

/-! ### Blocks -/

def block (form : Form) : Form :=
  .sequence [.terminal .indent,
    .many (.sequence [.without (.terminal .dedent), form]), .terminal .dedent]

/-- The end of a line, with no block behind it. -/
def nothing : Form := .sequence [.without (.terminal .indent), .terminal .newline]

/-- What a compound statement holds: statements on its line, a block, or nothing. -/
def suite : Form :=
  .choice [onward (call .simpleStatements), block (call .statement), nothing]

/-- A colon and a suite. -/
def body : Form := .sequence [operator ":", call .suite]

def elseClause : Form := .sequence [word "else", body]

def ifStatement : Form :=
  .sequence [word "if", call .expression, body,
    .many (.sequence [word "elif", call .expression, body]), .optional elseClause,
    .without (oneWord ["elif", "else"])]

def forStatement : Form :=
  .sequence [.optional (word "async"), word "for", items (call .pattern), word "in",
    expressionList, body, .optional elseClause, .without (word "else")]

def whileStatement : Form :=
  .sequence [word "while", call .expression, body, .optional elseClause, .without (word "else")]

def tryStatement : Form :=
  let finallyClause := Rule.sequence [word "finally", body]
  let handler := Rule.sequence [word "except", .optional (operator "*"),
    .optional (.sequence [call .expression,
      .optional (.sequence [operator ",", call .expression])]), body]
  .sequence [word "try", body, .choice
    [.sequence [.many1 handler, .optional elseClause, .optional finallyClause], finallyClause],
    .without (oneWord ["except", "else", "finally"])]

def withStatement : Form :=
  .sequence [.optional (word "async"), word "with", items (call .expression), body]

def matchStatement : Form :=
  let case := Rule.sequence [word "case", expressionList,
    .optional (.sequence [word "if", call .expression]), body]
  .sequence [word "match", onward expressionList, operator ":",
    .choice [block case, nothing]]

/-! ### Definitions -/

def typeParameters : Form :=
  square (items (.sequence [type, .optional (.sequence [operator ":", type])]))

def parameter : Form :=
  let typed := Rule.optional (.sequence [operator ":", type])
  .choice
    [.sequence [.terminal (.anyOperator ["*", "**"]), .optional (.sequence [identifier, typed])],
      operator "/",
      .sequence [.choice [identifier, round (items (call .pattern))], typed,
        .optional (.sequence [operator "=", call .expression])]]

def functionDefinition : Form :=
  .node .functionDefinition (.sequence [.optional (word "async"), word "def",
    .within .name identifier, .optional typeParameters, round (.optional (items parameter)),
    .optional (.sequence [operator "->", type]), body])

def classDefinition : Form :=
  .node .classDefinition (.sequence [word "class", .within .name identifier,
    .optional typeParameters, .optional arguments, body])

def decorated : Form :=
  .sequence [.many1 (.sequence [operator "@", call .expression, .terminal .newline]),
    .choice [classDefinition, functionDefinition]]

def statement : Form :=
  .choice
    [functionDefinition,
      classDefinition,
      .node .group decorated,
      .node .group ifStatement,
      .node .group forStatement,
      .node .group whileStatement,
      .node .group tryStatement,
      .node .group withStatement,
      .node .group matchStatement,
      call .simpleStatements]

/-- The form of each phrase. -/
def ofPhrase : Phrase → Form
  | .statement => statement
  | .simpleStatements => simpleStatements
  | .suite => suite
  | .assignment => assignment
  | .expression => expression
  | .operand => operand
  | .chain => chain
  | .pattern => pattern
  | .clauses => clauses
  | .interpolation => interpolation

end SourceSurvey.Python.Form
