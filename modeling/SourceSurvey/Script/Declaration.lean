import SourceSurvey.Script.Expression

/-!
Declarations: variables, functions, classes and, with type annotations, the kinds of types.
-/

namespace SourceSurvey.Script.Form

open Syntax

/-! ### Variables -/

/-- A name or pattern that is declared, with its type. -/
def binding (dialect : Dialect) : Form :=
  .sequence [.within .name (.choice [identifier, destructuring]),
    typedOptional dialect (.sequence [.optional (operator "!"), call .ascription])]

/-- The variables of a declaration, to its end. -/
def declarators (dialect : Dialect) : Form :=
  let goOn (afterExpression : Bool) : Form :=
    .choice [.sequence [operator ",", call .declarators], ending afterExpression]
  .choice
    [.sequence [.node .declarator (.sequence [binding dialect, operator "=",
      .within .value (call .expression)]), goOn true],
      .sequence [.node .declarator (binding dialect), .without (operator "="), goOn false]]

def variableDeclaration (words : List String) : Form :=
  .node .variableDeclaration (.sequence [oneWord words, call .declarators])

/-! ### Functions -/

def functionDeclaration (dialect : Dialect) : Form :=
  let asyncWord := Rule.optional (.sequence [word "async", .ahead (word "function")])
  let rest := Rule.sequence [.within .name identifier, call .signature]
  .choice ([
    .node .functionDeclaration (.sequence [asyncWord, word "function", rest, call .block]),
    .node .generatorDeclaration
      (.sequence [asyncWord, word "function", operator "*", rest, call .block])] ++
    typed dialect (.node .signatureDeclaration
      (.sequence [asyncWord, word "function", rest, ending false])))

/-! ### Classes -/

def superclass (dialect : Dialect) : Form :=
  .sequence [call .chain, typedOptional dialect typeArguments]

def heritage (dialect : Dialect) : Form :=
  if dialect.typed then
    .sequence
      [.optional (.sequence [word "extends", .separated (operator ",") (superclass dialect)]),
        .optional (.sequence [word "implements", .separated (operator ",") (call .type)])]
  else .optional (.sequence [word "extends", superclass dialect])

def classModifiers (dialect : Dialect) : List String :=
  ["static", "async", "get", "set"] ++
    if dialect.typed then
      ["public", "private", "protected", "readonly", "abstract", "override", "declare", "accessor"]
    else []

def field (dialect : Dialect) : Form :=
  let endings (afterExpression : Bool) : Form :=
    .choice (ending afterExpression :: typed dialect (operator ","))
  let head := Rule.sequence [decorators dialect, modifiers (classModifiers dialect),
    call .propertyName, typedOptional dialect (.choice [operator "?", operator "!"]),
    typedOptional dialect (call .ascription)]
  .choice
    [.sequence [head, operator "=", call .expression, endings true],
      .sequence [head, .without (operator "="), endings false]]

/-- Members of classes that only have types. -/
def memberSignatures (dialect : Dialect) : List Form :=
  let endings := Rule.choice [ending false, operator ","]
  typed dialect (.sequence [modifiers (classModifiers dialect), indexMember, endings]) ++
    typed dialect (.sequence [decorators dialect, modifiers (classModifiers dialect),
      call .propertyName, .optional (operator "?"), call .signature, endings])

def classMember (dialect : Dialect) : Form :=
  .choice ([
    operator ";",
    .sequence [word "static", call .block],
    method dialect (classModifiers dialect)] ++
    memberSignatures dialect ++
    [field dialect])

/-- What a class has after its name. -/
def classBody (dialect : Dialect) : Form :=
  .sequence [typedOptional dialect typeParameters, heritage dialect,
    braced (.many (classMember dialect))]

def className (dialect : Dialect) : Form :=
  .within .name
    (.terminal (.name (if dialect.typed then .typeName else .identifier) ["extends", "implements"]))

def classDeclaration (dialect : Dialect) : Form :=
  .choice (
    .node .classDeclaration
      (.sequence [decorators dialect, word "class", className dialect, call .classBody]) ::
    typed dialect (.node .abstractClassDeclaration
      (.sequence [decorators dialect, word "abstract", word "class", className dialect,
        call .classBody])))

/-! ### Types and modules -/

def declaredType : Form := .within .name (.terminal (.name .typeName []))

def interface : Form :=
  .node .interfaceDeclaration (.sequence [word "interface", declaredType, .optional typeParameters,
    .optional (.sequence [word "extends", .separated (operator ",") (call .type)]),
    call .objectType])

def typeAlias : Form :=
  .node .typeAlias (.sequence [word "type", declaredType, .optional typeParameters, operator "=",
    call .type, ending false])

def enumeration : Form :=
  .node .enumDeclaration (.sequence [.optional (word "const"), word "enum",
    .within .name identifier, braced (.optional (items
      (.sequence [call .propertyName, .optional (.sequence [operator "=", call .expression])])))])

/-- Names joined by points. -/
def qualifiedName : Form := .separated (operator ".") identifier

def moduleDeclaration : Form :=
  .node .moduleDeclaration (.sequence [oneWord ["module", "namespace"], sameLine,
    .within .name (.choice [.terminal .string, .node .group qualifiedName]),
    .optional (call .block)])

def ambientDeclaration : Form :=
  .node .ambientDeclaration (.sequence [word "declare", .choice
    [call .declaration,
      .sequence [word "global", call .block],
      .sequence [word "module", operator ".", property, operator ":", call .type, ending false]]])

/-- Another name for a member of a module. -/
def importAlias : Form :=
  .node .group (.sequence [word "import", .optional (.sequence [word "type", .ahead identifier]),
    identifier, operator "=", qualifiedName, ending false])

def declaration (dialect : Dialect) : Form :=
  .choice (
    (typed dialect enumeration) ++
    [functionDeclaration dialect,
      classDeclaration dialect,
      variableDeclaration ["let", "const", "var"]] ++
    if dialect.typed then
      [interface, typeAlias, moduleDeclaration, ambientDeclaration, importAlias]
    else [])

end SourceSurvey.Script.Form
