import SourceSurvey.Python.Token

/-!
The phrases of Python that contain each other, and what their rules are written with.
-/

namespace SourceSurvey.Python

open Syntax

/-- The rules that others refer to by name. -/
inductive Phrase where
  | statement
  | simpleStatements
  | suite
  | assignment
  | expression
  | operand
  | chain
  | pattern
  | clauses
  | interpolation
deriving Repr, DecidableEq

abbrev Form := Rule Terminal Phrase

namespace Form

def word (text : String) : Form := .terminal (.word text)

def operator (text : String) : Form := .terminal (.operator text)

def call (phrase : Phrase) : Form := Rule.call phrase

def oneWord (texts : List String) : Form := .choice (texts.map word)

def identifier : Form := .terminal (.name [])

/-- Something on the same line, where the line might also end. -/
def onward (form : Form) : Form := .sequence [.terminal .sameLine, form]

/-- Items between commas. -/
def listed (form : Form) : Form :=
  .sequence [form, .many (.sequence [onward (operator ","), onward form])]

/-- Items between commas, one may follow the last. -/
def items (form : Form) : Form := .sequence [listed form, .optional (onward (operator ","))]

def round (form : Form) : Form := .sequence [operator "(", form, operator ")"]

def square (form : Form) : Form := .sequence [operator "[", form, operator "]"]

def braced (form : Form) : Form := .sequence [operator "\x7b", form, operator "\x7d"]

end Form

end SourceSurvey.Python
