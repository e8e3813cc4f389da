/-!
What the words of a command say. Options and flags may come in any order and be joined to their
values or to each other; after two dashes every word is an operand.
-/

namespace SourceSurvey.CommandLine

/-- What a command asks for. -/
structure Options where
  repoPath : String
  output : String
  summaryOnly : Bool
  config : Option String
  verbose : Bool
  quiet : Bool
deriving Repr, DecidableEq

inductive Flag where
  | summaryOnly
  | verbose
  | quiet
  | help
  | version
deriving Repr, DecidableEq

/-- What has a value. -/
inductive Operand where
  | repoPath
  | output
  | config
deriving Repr, DecidableEq

inductive Argument where
  | flag (f : Flag)
  | operand (o : Operand)
deriving Repr, DecidableEq

/-- An argument as messages show it. -/
def Argument.display : Argument → String
  | .flag .summaryOnly => "--summary-only"
  | .flag .verbose => "--verbose"
  | .flag .quiet => "--quiet"
  | .flag .help => "--help"
  | .flag .version => "--version"
  | .operand .repoPath => "<REPO_PATH>"
  | .operand .output => "--output <OUTPUT>"
  | .operand .config => "--config <CONFIG>"

def longNames : List (String × Argument) :=
  [("output", .operand .output), ("summary-only", .flag .summaryOnly),
    ("config", .operand .config), ("verbose", .flag .verbose), ("quiet", .flag .quiet),
    ("help", .flag .help), ("version", .flag .version)]

def shortNames : List (Char × Argument) :=
  [('o', .operand .output), ('c', .operand .config), ('v', .flag .verbose), ('q', .flag .quiet),
    ('h', .flag .help), ('V', .flag .version)]

/-- Why a command asks for nothing that can be done, or only for information. -/
inductive Refusal where
  | help
  | version
  | unknownArgument (word : String)
  | missingOperand
  | conflict (first second : Argument)
  | repeated (a : Argument)
  | unneededValue (value : String) (f : Flag)
  | missingValue (o : Operand)
deriving Repr, DecidableEq

def Refusal.message : Refusal → String
  | help | version => ""
  | unknownArgument word => "unexpected argument '" ++ word ++ "' found"
  | missingOperand => "the following required arguments were not provided:"
  | conflict first second =>
    "the argument '" ++ first.display ++ "' cannot be used with '" ++ second.display ++ "'"
  | repeated a => "the argument '" ++ a.display ++ "' cannot be used multiple times"
  | unneededValue value f =>
    "unexpected value '" ++ value ++ "' for '" ++ (Argument.flag f).display ++
      "' found; no more were expected"
  | missingValue o =>
    "a value is required for '" ++ (Argument.operand o).display ++ "' but none was supplied"

/-- What has been read of a command. -/
structure Reading where
  /-- The flags, the first of them last. -/
  flags : List Flag := []
  values : List (Operand × String) := []
  /-- An operand whose value is not settled: it is still to come, or has just come. -/
  pending : Option (Operand × Option String) := none
  /-- Whether two dashes have been read. -/
  onlyOperands : Bool := false

namespace Reading

abbrev Step := Reading → Except Refusal Reading

def setValue (o : Operand) (value : String) : Step := fun r =>
  if (r.values.lookup o).isSome then .error (.repeated (.operand o))
  else if value.isEmpty then .error (.missingValue o)
  else .ok { r with values := (o, value) :: r.values }

/-- Settle the pending operand. -/
def settle : Step := fun r =>
  match r.pending with
  | none => .ok r
  | some (o, none) => .error (.missingValue o)
  | some (o, some value) => setValue o value { r with pending := none }

def setFlag (f : Flag) : Step := fun r => do
  let r ← r.settle
  match f with
  | .help => throw .help
  | .version => throw .version
  | f => if f ∈ r.flags then throw (.repeated (.flag f)) else return { r with flags := f :: r.flags }

/-- An operand with its value, or before it. -/
def setOperand (o : Operand) (value : Option String) : Step := fun r => do
  let r ← r.settle
  match value with
  | some value => r.setValue o value
  | none => return { r with pending := some (o, none) }

/-- A word that begins with two dashes: a name, and perhaps a value after an equals sign. -/
def longArgument (word : List Char) : Step := fun r =>
  let name := String.ofList (word.takeWhile (· ≠ '='))
  let value := match word.dropWhile (· ≠ '=') with
    | _ :: value => some (String.ofList value)
    | [] => none
  match longNames.lookup name, value with
  | none, _ => .error (.unknownArgument ("--" ++ name))
  | some (.operand o), value => r.setOperand o value
  | some (.flag f), none => r.setFlag f
  | some (.flag f), some value => .error (.unneededValue value f)

/-- A word that begins with one dash: flags in a row, the last of which may be an operand with its
value. -/
def shortArguments : List Char → Step
  | [], r => .ok r
  | c :: rest, r =>
    match shortNames.lookup c with
    | none => .error (.unknownArgument ("-" ++ c.toString))
    | some (.flag f) => do shortArguments rest (← r.setFlag f)
    | some (.operand o) =>
      r.setOperand o <|
        match rest with
        | [] => none
        | '=' :: value => some (String.ofList value)
        | value => some (String.ofList value)

def operandWord (word : String) : Step := fun r => do
  match r.pending with
  | some (o, none) =>
    if !r.onlyOperands then return { r with pending := some (o, some word) }
  | _ => pure ()
  let isTaken := (r.values.lookup .repoPath).isSome || r.pending.any (·.1 = .repoPath)
  if isTaken then throw (.unknownArgument word)
  return { (← r.settle) with pending := some (.repoPath, some word) }

def word (w : String) : Step := fun r =>
  if r.onlyOperands then r.operandWord w
  else match w.toList with
    | ['-', '-'] => .ok { r with onlyOperands := true }
    | '-' :: '-' :: name => r.longArgument name
    | '-' :: c :: rest => r.shortArguments (c :: rest)
    | _ => r.operandWord w

/-- Flags that contradict each other, in the order of the command. -/
def checkConflict (r : Reading) : Except Refusal Unit :=
  match r.flags.reverse.filter (fun f => f = .verbose ∨ f = .quiet) with
  | first :: second :: _ => .error (.conflict (.flag first) (.flag second))
  | _ => .ok ()

end Reading

def defaultOutput : String := "ai_analysis"

/-- The options that the words of a command stand for. -/
def parse (words : List String) : Except Refusal Options := do
  let r ← words.foldlM (fun (r : Reading) w => r.word w) {}
  let r ← r.settle
  r.checkConflict
  match r.values.lookup .repoPath with
  | none => throw .missingOperand
  | some repoPath =>
    return {
      repoPath
      output := (r.values.lookup .output).getD defaultOutput
      summaryOnly := .summaryOnly ∈ r.flags
      config := r.values.lookup .config
      verbose := .verbose ∈ r.flags
      quiet := .quiet ∈ r.flags }

/-- How much is reported while a survey is made. -/
inductive Verbosity where
  | quiet
  | normal
  | verbose
deriving Repr, DecidableEq

namespace Verbosity

def ofOptions (o : Options) : Verbosity :=
  if o.verbose then verbose else if o.quiet then quiet else normal

/-- The filter for what is reported. -/
def directive : Verbosity → String
  | quiet => "codebase_analyzer=warn"
  | normal => "codebase_analyzer=info"
  | verbose => "codebase_analyzer=debug"

end Verbosity

end SourceSurvey.CommandLine
