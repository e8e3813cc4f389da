import SourceSurvey.Script.Declaration

/-!
Statements, with the imports and exports of modules.
-/

namespace SourceSurvey.Script.Form

open Syntax

/-! ### Modules -/

def source : Form := .sequence [word "from", .within .source (.terminal .string)]

/-- A name by which a module exports something. -/
def exportedName : Form := .choice [identifier, .terminal .string]

def typeMark : Form := oneWord ["type", "typeof"]

/-- One name of an import list, with the name it gets. -/
def importSpecifier (dialect : Dialect) : Form :=
  let ended := Rule.ahead (.choice [operator ",", operator "\x7d"])
  let renamed := Rule.sequence [exportedName, word "as", identifier, ended]
  .choice (
    typed dialect (.sequence [typeMark, renamed]) ++
    typed dialect (.sequence [typeMark, identifier, ended]) ++
    [renamed, .sequence [identifier, ended]])

def importClause (dialect : Dialect) : Form :=
  let whole := Rule.sequence [operator "*", word "as", identifier]
  let list := braced (.optional (items (importSpecifier dialect)))
  .choice [whole, list,
    .sequence [identifier, .optional (.sequence [operator ",", .choice [whole, list]])]]

def importStatement (dialect : Dialect) : Form :=
  let required := Rule.node .group (.sequence [identifier, operator "=", word "require",
    round (.within .source (.terminal .string))])
  let rest := Rule.choice (
    [.sequence [importClause dialect, source], .within .source (.terminal .string)] ++
    typed dialect required)
  .node .importStatement (.sequence [word "import",
    .choice (typed dialect (.sequence [typeMark, rest]) ++ [rest]),
    .optional (.sequence [word "with", braced (sparse (objectMember dialect))]),
    ending false])

def exportClause (dialect : Dialect) : Form :=
  let renamed := Rule.sequence [.within .name exportedName, word "as", exportedName]
  let plain := Rule.within .name exportedName
  let ended := Rule.ahead (.choice [operator ",", operator "\x7d"])
  .node .exportClause (braced (.optional (items (.node .exportSpecifier (.choice (
    typed dialect (.sequence [typeMark, renamed, ended]) ++
    typed dialect (.sequence [typeMark, plain, ended]) ++
    [.sequence [renamed, ended], .sequence [plain, ended]]))))))

def exportStatement (dialect : Dialect) : Form :=
  let exported (form : Form) : Form := .sequence [word "export", form]
  .node .exportStatement (.choice (
    [exported (.sequence [operator "*", .optional (.sequence [word "as", exportedName]), source,
      ending false]),
      exported (.sequence [exportClause dialect, .optional source, ending false])] ++
    typed dialect (exported (.sequence [word "type", exportClause dialect, .optional source,
      ending false])) ++
    typed dialect (exported (.sequence [operator "=", call .expression, ending true])) ++
    typed dialect (exported (.sequence [word "as", word "namespace", identifier, ending false])) ++
    [.sequence [decorators dialect, exported (.choice
      [.sequence [word "default", .choice
        [.within .declaration (call .declaration),
          .sequence [.within .value (call .expression), ending true]]],
        .within .declaration (call .declaration)])]]))

/-! ### Control -/

def condition (dialect : Dialect) : Form := parenthesized dialect

def ifStatement (dialect : Dialect) : Form :=
  .sequence [word "if", condition dialect, call .statement,
    .optional (.sequence [word "else", call .statement])]

/-- What a loop over the items of a collection has in brackets. -/
def iteration (dialect : Dialect) : Form :=
  let declared := Rule.choice [identifier, destructuring]
  .sequence [
    .choice
      [.sequence [word "var", declared, .optional (.sequence [operator "=", call .operand])],
        .sequence [oneWord ["let", "const"], declared],
        destructuring,
        place dialect,
        parenthesized dialect],
    oneWord ["in", "of"], call .expressions]

/-- What a counting loop has in brackets. -/
def counting : Form :=
  .sequence [
    .choice [variableDeclaration ["let", "const", "var"],
      .sequence [.optional (call .expressions), operator ";"]],
    .optional (call .expressions), operator ";", .optional (call .expressions)]

def forStatement (dialect : Dialect) : Form :=
  .sequence [word "for", .optional (word "await"),
    round (.choice [.sequence [iteration dialect, .ahead (operator ")")], counting]),
    call .statement]

def tryStatement (dialect : Dialect) : Form :=
  .sequence [word "try", call .block,
    .optional (.sequence [word "catch",
      .optional (round (.sequence [.choice [identifier, destructuring],
        typedOptional dialect (call .ascription)])),
      call .block]),
    .optional (.sequence [word "finally", call .block])]

def switchStatement (dialect : Dialect) : Form :=
  .sequence [word "switch", condition dialect,
    braced (.many (.sequence
      [.choice [.sequence [word "case", call .expressions], word "default"], operator ":",
        .many (call .statement)]))]

/-- A jump to a label or out of the innermost statement. -/
def jump : Form :=
  .sequence [oneWord ["break", "continue"],
    .choice [ending false, .sequence [identifier, ending false]]]

/-- The words that begin other statements than expressions. -/
def statementWords (dialect : Dialect) : List String :=
  ["if", "for", "while", "do", "return", "break", "continue", "throw", "try", "switch", "debugger",
    "with", "var", "const", "export", "case", "default"] ++
    if dialect.typed then ["enum", "interface", "abstract"] else []

def expressionStatement (dialect : Dialect) : Form :=
  .sequence [
    .without (oneWord (statementWords dialect)),
    .without (.sequence [.optional (word "async"), word "function", .optional (operator "*"),
      identifier]),
    .without (.sequence [word "class", .terminal (.name .identifier ["extends", "implements"])]),
    call .expressions, ending true]

def labeled (dialect : Dialect) : Form :=
  .sequence [.terminal (.name .identifier (statementWords dialect)), operator ":", call .statement]

def block : Form := .node .group (braced (.many (call .statement)))

def statement (dialect : Dialect) : Form :=
  .choice
    [operator ";",
      .terminal .markupComment,
      importStatement dialect,
      exportStatement dialect,
      call .declaration,
      call .block,
      .node .group (ifStatement dialect),
      .node .group (forStatement dialect),
      .node .group (.sequence [word "while", condition dialect, call .statement]),
      .node .group (.sequence [word "do", call .statement, word "while", condition dialect,
        .optional (ending false)]),
      .node .group (tryStatement dialect),
      .node .group (switchStatement dialect),
      .node .group (.sequence [word "with", condition dialect, call .statement]),
      .node .group (.sequence [word "return",
        .choice [ending false, .sequence [call .expressions, ending true]]]),
      .node .group (.sequence [word "throw", call .expressions, ending true]),
      .node .group jump,
      .node .group (.sequence [word "debugger", ending false]),
      .node .group (labeled dialect),
      .node .group (expressionStatement dialect)]

/-- The form of each phrase. -/
def ofPhrase (dialect : Dialect) : Phrase → Form
  | .statement => statement dialect
  | .block => block
  | .declaration => declaration dialect
  | .declarators => declarators dialect
  | .expressions => expressions
  | .expression => expression dialect
  | .operand => operand dialect
  | .chain => chain dialect
  | .atom => atom dialect
  | .arrow => arrow
  | .construction => construction dialect
  | .function => function
  | .arguments => arguments
  | .element => element dialect
  | .pattern => pattern dialect
  | .parameters => parameters dialect
  | .signature => signature dialect
  | .propertyName => propertyName
  | .classBody => classBody dialect
  | .type => type
  | .typeOperand => typeOperand
  | .objectType => objectType
  | .typeArguments => typeArguments
  | .ascription => ascription

end SourceSurvey.Script.Form
