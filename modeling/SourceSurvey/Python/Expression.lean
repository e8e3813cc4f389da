import SourceSurvey.Python.Phrase

/-!
Expressions. Operators are not sorted by how tightly they bind: an expression with operators is
one node over its operands.
-/

namespace SourceSurvey.Python.Form

open Syntax

/-- The names that are words of the grammar where an operand is expected. -/
def operandWords : List String := ["lambda", "not", "True", "False", "None"]

def operandName : Form := .terminal (.name operandWords)

/-- One or more expressions between commas. -/
def expressionList : Form :=
  .sequence [call .expression, .optional (.onto .group none [] (.choice
    [.sequence [.many1 (.sequence [onward (operator ","), onward (call .expression)]),
      .optional (onward (operator ","))],
      onward (operator ",")]))]

def yieldExpression : Form :=
  .node .group (.sequence [word "yield", .choice
    [.sequence [word "from", call .expression], onward expressionList, .empty]])

/-! ### Strings -/

def interpolation : Form :=
  braced (.sequence [.choice [yieldExpression, expressionList], .optional (operator "="),
    .optional (.sequence [operator "!", identifier]),
    .optional (.sequence [operator ":",
      .many (.choice [call .interpolation, .terminal .formatSpec])])])

def string : Form :=
  .choice
    [.terminal .string,
      .node .group (.sequence [.terminal .formatStart,
        .many (.choice [.terminal .formatText, call .interpolation]), .terminal .formatEnd])]

def strings : Form :=
  .sequence [string, .optional (.onto .group none [] (.many1 (onward string)))]

/-! ### Collections -/

/-- The loops and conditions of a comprehension. -/
def clauses : Form :=
  let loop := Rule.sequence [.optional (word "async"), word "for", items (call .pattern), word "in",
    items (call .expression)]
  .sequence [loop, .many (.choice [loop, .sequence [word "if", call .expression]])]

def starred : Form :=
  .sequence [.terminal (.anyOperator ["*", "**"]), call .expression]

def element : Form := .choice [yieldExpression, call .expression, starred]

/-- Elements between commas, or one with the loops of a comprehension, behind the first. -/
def furtherElements (form : Form) : Form :=
  .choice [call .clauses,
    .sequence [.many (.sequence [operator ",", form]), .optional (operator ",")]]

def bracketed : Form := .node .parenthesized (round (.optional (.sequence
  [element, furtherElements element])))

def list : Form := .node .arrayLiteral (square (.optional (.sequence
  [element, furtherElements element])))

def pair : Form :=
  .choice [.sequence [operator "**", call .expression],
    .sequence [call .expression, operator ":", call .expression]]

def dictionaryOrSet : Form :=
  .node .objectLiteral (braced (.choice
    [.sequence [operator "**", call .expression, furtherElements pair],
      .sequence [element, .choice
        [.sequence [operator ":", call .expression, furtherElements pair],
          furtherElements element]],
      .optional (operator ",")]))

/-! ### Operands -/

def argument : Form :=
  .choice [starred, .sequence [identifier, operator "=", call .expression], call .expression]

def arguments : Form :=
  .node .arguments (round (.choice
    [.sequence [argument, furtherElements argument], .optional (operator ",")]))

def slice : Form :=
  let further := Rule.sequence [operator ":", .optional (call .expression),
    .optional (.sequence [operator ":", .optional (call .expression)])]
  .choice [.sequence [call .expression, .optional further], further]

def atom : Form :=
  .choice
    [strings,
      operandName,
      .terminal .number,
      oneWord ["True", "False", "None"],
      operator "...",
      bracketed,
      list,
      dictionaryOrSet]

/-- An operand with its attributes, subscripts and arguments. -/
def chain : Form :=
  .sequence [atom, .many (onward (.choice
    [.onto .member none [] (.sequence [operator ".", identifier]),
      .onto .subscript none [] (square (items slice)),
      .onto .call (some .function) [] arguments]))]

def lambdaParameter : Form :=
  .choice
    [.sequence [.terminal (.anyOperator ["*", "**"]), .optional identifier],
      operator "/",
      .sequence [call .pattern, .optional (.sequence [operator "=", call .expression])]]

/-- An operand with the operators before it. -/
def operand : Form :=
  .choice
    [.node .group (.sequence [word "lambda", .optional (items lambdaParameter), operator ":",
      call .expression]),
      .node .group (.sequence [word "not", call .operand]),
      .node .group (.sequence [word "await", onward (call .chain)]),
      .node .group (.sequence [.terminal (.anyOperator ["+", "-", "~"]), call .operand]),
      .node .group (.sequence [operator "*", call .chain]),
      .node .group (.sequence [operandName, onward (operator ":="), call .expression]),
      call .chain]

def binaryOperators : List String :=
  ["+", "-", "*", "@", "/", "//", "%", "**", "|", "&", "^", "<<", ">>", "<", "<=", "==", "!=", ">=",
    ">", "<>"]

def expression : Form :=
  let joined := Rule.sequence [.choice
    [.terminal (.anyOperator binaryOperators), oneWord ["and", "or", "in", "is"],
      .sequence [word "not", word "in"]], call .operand]
  let condition := Rule.sequence [word "if", call .expression, word "else", call .expression]
  let renamed := Rule.sequence [word "as", call .expression]
  .sequence [call .operand, .optional (.onto .group none []
    (.many1 (onward (.choice [joined, condition, renamed]))))]

/-! ### Patterns -/

/-- What values are assigned to. -/
def pattern : Form :=
  let places : List Kind := [.identifier, .member, .subscript]
  let patterns := Rule.optional (items (call .pattern))
  .sequence [.without (oneWord ["in", "yield"]), .choice
    [.node .group (.sequence [operator "*", call .chain, .built places]),
      .sequence [call .chain, .built places],
      .node .group (round patterns),
      .node .group (square patterns)]]

end SourceSurvey.Python.Form
