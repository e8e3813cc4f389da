import SourceSurvey.Script.Phrase

/-!
Type annotations: types, type parameters and the members of object types.
-/

namespace SourceSurvey.Script.Form

open Syntax

/-- Types in angle brackets. -/
def typeArguments : Form :=
  .sequence [operator "<", items (call .type), .terminal .angle]

def typeParameter : Form :=
  .sequence [.optional (.sequence [word "const", .ahead identifier]), identifier,
    .optional (.sequence [.choice [word "extends", operator ":"], call .type]),
    .optional (.sequence [operator "=", call .type])]

def typeParameters : Form :=
  .sequence [operator "<", items typeParameter, .terminal .angle]

/-- A type after a colon: also a claim that a parameter is of a type. -/
def ascription : Form :=
  let subject := identifier
  .sequence [operator ":", .choice
    [.sequence [word "asserts", sameLine, subject, .optional (.sequence [word "is", call .type])],
      .sequence [subject, sameLine, word "is", call .type],
      call .type]]

/-- What follows a parameter list's arrow in a function type. -/
def resultType : Form :=
  .choice
    [.sequence [word "asserts", sameLine, identifier, .optional (.sequence [word "is", call .type])],
      .sequence [identifier, sameLine, word "is", call .type],
      call .type]

def functionType : Form :=
  .sequence [.optional typeParameters, call .parameters, operator "=>", resultType]

def constructorType : Form :=
  .sequence [.optional (word "abstract"), word "new", .optional typeParameters, call .parameters,
    operator "=>", call .type]

/-- A name of a type with the modules that it is in. -/
def typeName : Form :=
  .sequence [identifier, .many (.sequence [operator ".", property])]

/-- A type read from a module. -/
def importedType : Form :=
  .sequence [word "import", round (call .type), .many (.sequence [operator ".", property]),
    .optional (call .typeArguments)]

/-- The type of a value. -/
def typeQuery : Form :=
  .sequence [word "typeof", .choice [importedType,
    .sequence [.choice [.terminal .privateName, identifier], .many (.choice
      [.sequence [.choice [operator ".", operator "?."],
        .choice [property, .terminal .privateName]],
        .sequence [sameLine, square (.choice [.terminal .string, .terminal .number])]]),
      .optional (call .typeArguments)]]]

def tupleMember : Form :=
  .choice
    [.sequence [identifier, .optional (operator "?"), operator ":", call .type],
      .sequence [operator "...", identifier, operator ":", call .type],
      .sequence [operator "...", call .type],
      .sequence [call .type, .optional (operator "?")]]

def templateType : Form :=
  .sequence [operator "`", .many (.choice
    [.sequence [operator "$\x7b", call .type, operator "\x7d"], .terminal .templateText]),
    operator "`"]

def primaryType : Form :=
  .choice
    [round (call .type),
      call .objectType,
      square (.choice [items tupleMember, .empty]),
      .terminal .string,
      .terminal .number,
      .sequence [.choice [operator "-", operator "+"], .terminal .number],
      templateType,
      operator "*",
      importedType,
      .sequence [word "unique", sameLine, word "symbol"],
      .sequence [typeName, .optional (call .typeArguments)]]

/-- A type without the operators that join types. -/
def typeOperand : Form :=
  .choice
    [functionType,
      constructorType,
      typeQuery,
      .sequence [oneWord ["keyof", "readonly"], call .typeOperand],
      .sequence [word "infer", identifier,
        .optional (.sequence [word "extends", call .typeOperand, .without (operator "?")])],
      .sequence [operator "?", call .typeOperand],
      primaryType]

/-- A type with the brackets after it: an array of it, or a member looked up in it. -/
def suffixedType : Form :=
  .sequence [call .typeOperand,
    .many (.sequence [sameLine, square (.optional (call .type))])]

def type : Form :=
  let joint := Rule.choice [operator "|", operator "&"]
  .sequence [.optional joint, suffixedType, .many (.sequence [joint, suffixedType]),
    .optional (.sequence [word "extends", call .type, operator "?", call .type, operator ":",
      call .type])]

/-- The mark of a member that may be absent or must be there, and its type. -/
def memberAscription : Form :=
  .sequence [.optional (.choice
    [operator "?", .sequence [.choice [operator "-", operator "+"], operator "?"]]),
    .optional (call .ascription)]

def memberModifiers : Form :=
  modifiers ["public", "private", "protected", "static", "override", "readonly", "async", "get",
    "set"]

/-- Members under a key that stands for many names. -/
def indexMember : Form :=
  .sequence [.optional (.sequence
    [.optional (.choice [operator "-", operator "+"]), word "readonly"]),
    square (.choice
      [.sequence [identifier, operator ":", call .type],
        .sequence [identifier, word "in", call .type,
          .optional (.sequence [word "as", call .type])]]),
    memberAscription]

def objectTypeMember : Form :=
  .choice
    [indexMember,
      .sequence [.optional (word "abstract"), word "new", .ahead (.choice [operator "(", operator "<"]),
        call .signature],
      call .signature,
      .sequence [memberModifiers, call .propertyName, .optional (operator "?"),
        .choice [call .signature, .optional (call .ascription)]]]

def objectType : Form :=
  braced (.sequence [.optional (.choice [operator ",", operator ";"]),
    .many (.sequence [objectTypeMember,
      .choice [operator ",", ending false, .ahead (operator "\x7d")]])])

end SourceSurvey.Script.Form
