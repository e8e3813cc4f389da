import SourceSurvey.Script.Token

/-!
The phrases of scripts that contain each other, and what their rules are written with.
-/

namespace SourceSurvey.Script

open Syntax

/-- The rules that others refer to by name. -/
inductive Phrase where
  | statement
  | block
  | declaration
  | declarators
  | expressions
  | expression
  | operand
  | chain
  | atom
  | arrow
  | construction
  | function
  | arguments
  | element
  | pattern
  | parameters
  | signature
  | propertyName
  | classBody
  | type
  | typeOperand
  | objectType
  | typeArguments
  | ascription
deriving Repr, DecidableEq

abbrev Form := Rule Terminal Phrase

namespace Form

def word (text : String) : Form := .terminal (.word text)

def operator (text : String) : Form := .terminal (.operator text)

def call (phrase : Phrase) : Form := Rule.call phrase

/-- One of some words. -/
def oneWord (texts : List String) : Form := .choice (texts.map word)

/-- The names that are words of the grammar where an operand is expected. -/
def operandWords : List String :=
  ["function", "class", "new", "await", "yield", "typeof", "void", "delete", "this", "super",
    "null", "true", "false", "import", "undefined", "using"]

/-- A variable, where an operand may stand. -/
def operandName : Form := .terminal (.name .identifier operandWords)

/-- A name, where nothing else may stand. -/
def identifier : Form := .terminal (.name .identifier [])

/-- A name of a property, which may be any word. -/
def property : Form := .terminal (.name .propertyName [])

def sameLine : Form := .terminal .sameLine

/-- Something in round brackets. -/
def round (form : Form) : Form := .sequence [operator "(", form, operator ")"]

def square (form : Form) : Form := .sequence [operator "[", form, operator "]"]

def braced (form : Form) : Form := .sequence [operator "\x7b", form, operator "\x7d"]

/-- Items between commas, one may follow the last. -/
def items (form : Form) : Form :=
  .sequence [form, .many (.sequence [operator ",", form]), .optional (operator ",")]

/-- Items between commas, any of which may be left out. -/
def sparse (form : Form) : Form :=
  .sequence [.optional form, .many (.sequence [operator ",", .optional form])]

/-- The end of a statement: a semicolon, or a place where it may be left out. -/
def ending (afterExpression : Bool) : Form :=
  .choice [operator ";", .terminal (.statementEnd afterExpression)]

/-- A form, in the dialects with type annotations. -/
def typed (dialect : Dialect) (form : Form) : List Form := if dialect.typed then [form] else []

/-- A form that may be left out, and is in the dialects without type annotations. -/
def typedOptional (dialect : Dialect) (form : Form) : Form :=
  if dialect.typed then .optional form else .empty

/-- Words before a name that may be names themselves: each is one only if something follows that
a name may begin with. -/
def modifiers (texts : List String) : Form :=
  .many (.choice
    [.sequence [oneWord texts, .ahead (.choice
      [property, .terminal .privateName, .terminal .string, .terminal .number, operator "[",
        operator "*", operator "\x7b", operator "..."])],
      operator "*"])

end Form

end SourceSurvey.Script
