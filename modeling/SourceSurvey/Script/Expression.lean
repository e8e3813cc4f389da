import SourceSurvey.Script.Types

/-!
Expressions. Operators are not sorted by how tightly they bind: an expression with operators is
one node over its operands.
-/

namespace SourceSurvey.Script.Form

open Syntax

/-- Decorations before classes, members and parameters. -/
def decorator (dialect : Dialect) : Form :=
  .sequence [operator "@", .choice
    [.sequence [identifier,
      .many (.onto .member none [] (.sequence [operator ".", property])),
      .optional (.onto .call (some .function) []
        (.sequence [typedOptional dialect typeArguments,
          .within .arguments (call .arguments)]))],
      .node .parenthesized (round (call .expressions))]]

def decorators (dialect : Dialect) : Form := .many (decorator dialect)

/-! ### Patterns -/

def patternWithDefault : Form :=
  .sequence [call .pattern, .optional (.sequence [operator "=", call .expression])]

/-- A pattern that takes values apart. -/
def destructuring : Form :=
  .choice
    [.node .pattern (square (sparse patternWithDefault)),
      .node .pattern (braced (sparse (.choice
        [.sequence [call .propertyName, operator ":", patternWithDefault],
          .sequence [operator "...", call .pattern],
          .sequence [identifier, .optional (.sequence [operator "=", call .expression])]])))]

/-- What values are assigned to, apart from patterns. -/
def place (dialect : Dialect) : Form :=
  .sequence [.choice
    [operandName, .terminal (.name .undefined (operandWords.filter (· ≠ "undefined"))),
      oneWord ["this", "super"]],
    .many (.choice
      [.onto .member none [] (.sequence [.choice [operator ".", operator "?."],
        .choice [property, .terminal .privateName]]),
        .onto .subscript none [] (square (call .expressions)),
        .onto .nonNull none [] (typedOnly (.sequence [sameLine, operator "!"]))]),
    .built [.identifier, .undefined, .member, .subscript, .nonNull]]
where
  /-- A form that fits only in the dialects with type annotations. -/
  typedOnly (form : Form) : Form := .choice (typed dialect form)

def pattern (dialect : Dialect) : Form :=
  .choice [.sequence [operator "...", call .pattern], destructuring, place dialect]

/-! ### Functions -/

def parameter (dialect : Dialect) : Form :=
  if dialect.typed then
    .sequence [decorators dialect, modifiers ["public", "private", "protected", "override", "readonly"],
      .choice [call .pattern, word "this"], .optional (operator "?"), .optional (call .ascription),
      .optional (.sequence [operator "=", call .expression])]
  else patternWithDefault

def parameters (dialect : Dialect) : Form := round (.optional (items (parameter dialect)))

/-- Parameters with type parameters and the type of the result. -/
def signature (dialect : Dialect) : Form :=
  .sequence [typedOptional dialect typeParameters, call .parameters,
    typedOptional dialect (call .ascription)]

def arrow : Form :=
  let body := Rule.sequence [operator "=>", .choice [call .block, call .expression]]
  let head := Rule.choice [.sequence [operandName, .ahead (operator "=>")], call .signature]
  .node .arrowFunction (.choice
    [.sequence [word "async", sameLine, head, body], .sequence [head, body]])

def function : Form :=
  let rest := Rule.sequence [.optional (.within .name identifier), call .signature, call .block]
  let asyncWord := Rule.optional (.sequence [word "async", .ahead (word "function")])
  .choice
    [.node .functionExpression
      (.sequence [asyncWord, word "function", .without (operator "*"), rest]),
      .node .generatorExpression
        (.sequence [asyncWord, word "function", operator "*", rest])]

def arguments : Form :=
  .node .arguments (round (sparse (.choice
    [.sequence [operator "...", call .expression], call .expression])))

/-! ### Literals -/

def propertyName : Form :=
  .choice [property, .terminal .privateName, .terminal .string, .terminal .number,
    square (call .expression)]

/-- A method of a class or object. -/
def method (dialect : Dialect) (words : List String) : Form :=
  .node .methodDefinition (.sequence [decorators dialect, modifiers words,
    .within .name (call .propertyName), typedOptional dialect (operator "?"), call .signature,
    call .block])

def objectMember (dialect : Dialect) : Form :=
  .choice
    [.sequence [operator "...", call .expression],
      .node .pair (.sequence [.within .key (call .propertyName), operator ":",
        .within .value (call .expression)]),
      method dialect (["static", "async", "get", "set"] ++
        if dialect.typed then ["public", "private", "protected", "override", "readonly"] else []),
      identifier]

def template : Form :=
  .node .group (.sequence [operator "`", .many (.choice
    [.sequence [operator "$\x7b", call .expressions, operator "\x7d"], .terminal .templateText]),
    operator "`"])

/-- An array or object. Before an equals sign it is a pattern, and none of these. -/
def collection (dialect : Dialect) : Form :=
  .sequence [.choice
    [.node .arrayLiteral (square (sparse (.choice
      [.sequence [operator "...", call .expression], call .expression]))),
      .node .objectLiteral (braced (sparse (objectMember dialect)))],
    .without (operator "=")]

def parenthesized (dialect : Dialect) : Form :=
  .node .parenthesized (round (.sequence [call .expressions,
    typedOptional dialect (call .ascription)]))

/-! ### Markup -/

def tagName : Form :=
  .node .group (.separated (.choice [operator ".", operator ":"]) (.terminal .tagName))

def tagExpression : Form :=
  braced (.optional (.choice
    [.sequence [operator "...", call .expression], call .expressions]))

def tagAttribute : Form :=
  .choice
    [tagExpression,
      .sequence [.separated (operator ":") (.terminal .tagName),
        .optional (.sequence [operator "=",
          .choice [.terminal .tagString, tagExpression, call .element]])]]

/-- An element of markup, empty or with a closing tag, whose name may differ. -/
def element (dialect : Dialect) : Form :=
  let content := Rule.sequence
    [.terminal .angle,
      .many (.choice [.terminal .tagText, .terminal .reference, tagExpression, call .element]),
      operator "<", operator "/", .optional tagName, .terminal .angle]
  .choice
    [.sequence
      [.node .openTag (.sequence [operator "<", .within .name tagName,
        typedOptional dialect typeArguments, .many tagAttribute]),
        .choice
          [.onto .element none [] (.sequence [operator "/", .terminal .angle]),
            .onto .group none [] content]],
      .node .group (.sequence [operator "<", content])]

/-! ### Operands -/

/-- A new object of a class. -/
def construction (dialect : Dialect) : Form :=
  .choice
    [.node .group (.sequence [word "new", operator ".", word "target"]),
      .node .group (.sequence [word "new",
        .choice
          [call .construction,
            .sequence [call .atom, .many (.choice
              [.sequence [operator ".", .choice [property, .terminal .privateName]],
                square (call .expressions)])]],
        typedOptional dialect typeArguments,
        .choice [call .arguments, .without (operator "(")]])]

def classExpression (dialect : Dialect) : Form :=
  .node .classExpression (.sequence [decorators dialect, word "class",
    .optional (.within .name (.terminal (.name .typeName ["extends", "implements"]))),
    call .classBody])

/-- An operand without what may follow it. -/
def atom (dialect : Dialect) : Form :=
  .choice
    [call .function,
      classExpression dialect,
      operandName,
      .terminal (.name .undefined (operandWords.filter (· ≠ "undefined"))),
      oneWord ["this", "super", "null", "true", "false"],
      .terminal .string,
      .terminal .number,
      template,
      .terminal .regex,
      call .construction,
      parenthesized dialect,
      collection dialect,
      .sequence [word "import", .ahead (.choice [operator "(", operator "."])],
      .sequence [.terminal .privateName, .ahead (word "in")]]

/-- What may follow an operand: a member, a subscript, arguments or a template. -/
def suffix (dialect : Dialect) : Form :=
  let chained := Rule.optional (operator "?.")
  .choice ([
    .onto .member none [] (.sequence [.choice [operator ".", operator "?."],
      .choice [property, .terminal .privateName]]),
    .onto .subscript none [] (.sequence [chained, square (call .expressions)]),
    .onto .call (some .function) [] (.sequence [chained, .within .arguments (call .arguments)]),
    .onto .call (some .function) [] template] ++
    typed dialect (.onto .call (some .function) []
      (.sequence [chained, call .typeArguments, .choice
        [.within .arguments (call .arguments), template]])) ++
    typed dialect (.onto .group none []
      (.sequence [call .typeArguments, .choice
        [.ahead (.terminal (.anyOperator
          [")", "]", ",", ";", ":", "\x7d", ".", "?.", "==", "!=", "===", "!==", "=", "&&", "||",
            "??"])),
          .terminal (.statementEnd true)]])) ++
    typed dialect (.onto .nonNull none [] (.sequence [sameLine, operator "!"])))

/-- An operand with what follows it. -/
def chain (dialect : Dialect) : Form := .sequence [call .atom, .many (suffix dialect)]

def assignments : List String :=
  ["+=", "-=", "*=", "/=", "%=", "^=", "&=", "|=", ">>=", ">>>=", "<<=", "**=", "&&=", "||=", "??="]

/-- An operand that may be assigned to or stepped. -/
def assigned : Form :=
  let places : List Kind := [.identifier, .undefined, .member, .subscript, .nonNull, .parenthesized]
  .sequence [call .chain, .optional (.choice
    [.onto .group none [] (.sequence [sameLine, .terminal (.anyOperator ["++", "--"])]),
      .onto .assignment (some .left) places
        (.sequence [operator "=", .within .right (call .expression)]),
      .onto .group none places
        (.sequence [.terminal (.anyOperator assignments), call .expression])])]

/-- An operand with the operators before it. -/
def operand (dialect : Dialect) : Form :=
  .choice ([
    .node .group (.sequence [.choice
      [.terminal (.anyOperator ["!", "~", "-", "+", "++", "--"]),
        oneWord ["typeof", "void", "delete", "await"]], call .operand]),
    .node .group (.sequence [word "yield", .choice
      [.sequence [operator "*", call .expression], .sequence [sameLine, call .expression],
        .empty]]),
    .sequence [call .arrow, .many (suffix dialect)]] ++
    (if dialect.markup then [call .element]
      else [.node .group
        (.sequence [operator "<", call .type, .terminal .angle, call .operand])]) ++
    [.node .group (.sequence [word "using", call .operand]),
      assigned,
      .node .assignment (.sequence [.within .left destructuring, operator "=",
        .within .right (call .expression)])])

def binaryOperators : List String :=
  ["&&", "||", "??", "|", "^", "&", "==", "!=", "===", "!==", "<", ">", "<=", ">=", "<<", ">>",
    ">>>", "+", "-", "*", "/", "%", "**"]

def expression (dialect : Dialect) : Form :=
  let generic := typed dialect (.without (.sequence [call .typeArguments, operator "("]))
  let joined := Rule.choice ([
    .sequence [.sequence generic,
      .choice [.terminal (.anyOperator binaryOperators), oneWord ["instanceof", "in"]],
      call .operand]] ++
    typed dialect (.sequence [oneWord ["as", "satisfies"], call .type]))
  let condition := Rule.choice ([
    .sequence [operator "?", call .expression, operator ":", call .expression]] ++
    typed dialect (.sequence [operator "?", call .chain, operator ":", call .expression]))
  .sequence [call .operand, .optional (.onto .group none [] (.choice
    [.sequence [joined, .many joined, .optional condition], condition]))]

/-- Expressions between commas. -/
def expressions : Form :=
  .sequence [call .expression, .optional (.onto .group none []
    (.sequence [operator ",", call .expression,
      .many (.sequence [operator ",", call .expression])]))]

end SourceSurvey.Script.Form
