import SourceSurvey.Json.Basic
import SourceSurvey.Text.Quoted

/-!
Typed values from JSON. A decoder meets the errors of a value in the order in which the value is
written, errors of the text among them.
-/

namespace SourceSurvey.Json

/-- Why a value does not have the wanted type. -/
inductive DecodeError where
  | invalidType (found expected : String)
  | invalidValue (found expected : String)
  | invalidLength (length : Nat) (expected : String)
  | missingField (name : String)
  | duplicateField (name : String)
  | unknownVariant (name : String) (expected : List String)
  | refused (reason : String)
  | syntaxError (e : SyntaxError)
deriving Repr, DecidableEq

namespace DecodeError

def inBackticks (s : String) : String := "`" ++ s ++ "`"

def message : DecodeError → String
  | invalidType found expected => "invalid type: " ++ found ++ ", expected " ++ expected
  | invalidValue found expected => "invalid value: " ++ found ++ ", expected " ++ expected
  | invalidLength length expected =>
    "invalid length " ++ toString length ++ ", expected " ++ expected
  | missingField name => "missing field " ++ inBackticks name
  | duplicateField name => "duplicate field " ++ inBackticks name
  | unknownVariant name expected =>
    "unknown variant " ++ inBackticks name ++ ", expected one of " ++
      ", ".intercalate (expected.map inBackticks)
  | refused reason => reason
  | syntaxError e => e.message

end DecodeError

/-- Where a value comes from: it is being read from a text, or it is whole and its members are
sorted. The two differ in how some errors are reported. -/
inductive Origin where
  | text
  | whole
deriving Repr, DecidableEq

abbrev Decoder (α : Type) := Json → Except DecodeError α

/-- What a value is called in reports, if it is a value at all. -/
def description (j : Json) : Except DecodeError String :=
  match j with
  | null => .ok "null"
  | bool b => .ok ("boolean " ++ DecodeError.inBackticks (if b then "true" else "false"))
  | int n => .ok ("integer " ++ DecodeError.inBackticks (toString n))
  | float x =>
    if x.isInf then .error (.syntaxError .numberOutOfRange)
    else .ok ("floating point " ++ DecodeError.inBackticks (floatStyle.text x))
  | str s => .ok ("string " ++ Text.quoted s)
  | arr _ => .ok "sequence"
  | obj _ => .ok "map"
  | broken e => .error (.syntaxError e)

/-- Refuse a value that does not have the expected type. -/
def mismatch {α : Type} (expected : String) (j : Json) : Except DecodeError α := do
  throw (.invalidType (← j.description) expected)

/-- The first error in a value that nothing is made of. What numbers it holds does not matter. -/
def ignore : Decoder Unit
  | broken e => .error (.syntaxError e)
  | arr items => check (listError? items)
  | obj members => check (memberError? members)
  | _ => .ok ()
where
  check : Option SyntaxError → Except DecodeError Unit
    | none | some .numberOutOfRange => .ok ()
    | some e => .error (.syntaxError e)

namespace Decoder

def string : Decoder String
  | str s => .ok s
  | j => mismatch "a string" j

def bool : Decoder Bool
  | .bool b => .ok b
  | j => mismatch "a boolean" j

/-- A natural number below a limit. -/
def natural (limit : Nat) (expected : String) : Decoder Nat
  | int n =>
    if 0 ≤ n ∧ n < limit then .ok n.toNat
    else .error (.invalidValue ("integer " ++ DecodeError.inBackticks (toString n)) expected)
  | j => mismatch expected j

/-- A number of eight bits. -/
def byte : Decoder Nat := natural (Nat.pow 2 8) "u8"

/-- A number of 64 bits that counts things in memory. -/
def count : Decoder Nat := natural (Nat.pow 2 64) "usize"

/-- A number of 64 bits that measures a file. -/
def size : Decoder Nat := natural (Nat.pow 2 64) "u64"

def list {α : Type} (item : Decoder α) : Decoder (List α)
  | arr items => items.mapM item
  | j => mismatch "a sequence" j

def option {α : Type} (value : Decoder α) : Decoder (Option α)
  | null => .ok none
  | j => some <$> value j

/-- Of members with the same key the last counts. -/
def dictionary {α : Type} (value : Decoder α) : Decoder (Dictionary α)
  | obj members => members.foldlM (fun d (key, j) => return d.insert key (← value j)) ∅
  | j => mismatch "a map" j

def nameSet : Decoder NameSet
  | arr items => items.foldlM (fun names j => return names.insert (← string j) ()) ∅
  | j => mismatch "a sequence" j

/-- One of several names, alone or as the key of an object whose value says nothing. -/
def variant {α : Type} (origin : Origin) (names : List String) (ofName? : String → Option α) :
    Decoder α :=
  let byName (name : String) : Except DecodeError α :=
    match ofName? name with
    | some a => .ok a
    | none => .error (.unknownVariant name names)
  fun j =>
    match j with
    | str name => byName name
    | broken e => .error (.syntaxError e)
    | obj [(name, value)] =>
      match origin, value, name with
      | .text, broken e, "" => .error (.syntaxError e)
      | _, _, _ => do
        let a ← byName name
        match value with
        | null => return a
        | value => mismatch "unit" value
    | obj ((name, value) :: _) =>
      match origin with
      | .whole => .error (.invalidValue "map" "map with a single key")
      | .text => do
        let _ ← byName name
        match value with
        | null => throw (.syntaxError .expectedValue)
        | value => mismatch "unit" value
    | j =>
      match origin with
      | .whole => mismatch "string or map" j
      | .text => .error (.syntaxError .expectedValue)

end Decoder

/-- A field of a record: its name, the errors its value may have, and whether it may be left out. -/
structure FieldCheck where
  name : String
  check : Decoder Unit
  optional : Bool

/-- How a record is put together from the values of its fields. -/
structure RecordDecoder (α : Type) where
  fields : List FieldCheck
  build : (String → Option Json) → Except DecodeError α

namespace RecordDecoder

instance : Applicative RecordDecoder where
  pure a := ⟨[], fun _ => .ok a⟩
  seq f x :=
    ⟨f.fields ++ (x ()).fields, fun get => do
      let g ← f.build get
      let a ← (x ()).build get
      return g a⟩

/-- A field that must be there. -/
def field {α : Type} (name : String) (value : Decoder α) : RecordDecoder α :=
  ⟨[⟨name, fun j => (value j).map fun _ => (), false⟩], fun get =>
    match get name with
    | some j => value j
    | none => .error (.missingField name)⟩

/-- A field that stands for `default` if it is left out. -/
def fieldOr {α : Type} (name : String) (value : Decoder α) (default : α) : RecordDecoder α :=
  ⟨[⟨name, fun j => (value j).map fun _ => (), true⟩], fun get =>
    match get name with
    | some j => value j
    | none => .ok default⟩

/-- A field that need not be there in an object, but does in a list. -/
def optionalField {α : Type} (name : String) (value : Decoder α) : RecordDecoder (Option α) :=
  ⟨[⟨name, fun j => (Decoder.option value j).map fun _ => (), false⟩], fun get =>
    match get name with
    | some j => Decoder.option value j
    | none => .ok none⟩

/-- The errors of the members of an object, in order: those of the fields' values, fields that
come twice, and errors of the text in members that are no fields. -/
def checkMembers (fields : List FieldCheck) (seen : List String) :
    List (String × Json) → Except DecodeError Unit
  | [] => .ok ()
  | (key, j) :: rest =>
    match fields.find? (·.name = key) with
    | none => do
      ignore j
      checkMembers fields seen rest
    | some f => do
      if seen.contains key then throw (.duplicateField key)
      f.check j
      checkMembers fields (key :: seen) rest

/-- The errors of a list that stands for a record: those of the fields' values, and the first
field without a value that needs one. `length` counts the items before. -/
def checkItems (expected : String) (length : Nat) :
    List FieldCheck → List Json → Except DecodeError Unit
  | [], _ => .ok ()
  | f :: fields, [] =>
    if f.optional then checkItems expected length fields []
    else .error (.invalidLength length expected)
  | f :: fields, j :: rest => do
    f.check j
    checkItems expected (length + 1) fields rest

/-- A record, as an object or as the list of the values of its fields. -/
def decode {α : Type} (r : RecordDecoder α) (origin : Origin) (name : String) : Decoder α
  | obj members => do
    checkMembers r.fields [] members
    r.build fun key => members.lookup key
  | arr items => do
    let count := r.fields.length
    let expected := "struct " ++ name ++ " with " ++ toString count ++
      (if count = 1 then " element" else " elements")
    checkItems expected 0 r.fields items
    match items.drop count, origin with
    | [], _ => r.build fun key => ((r.fields.map (·.name)).zip items).lookup key
    | broken e :: _, .text => throw (.syntaxError e)
    | _ :: _, .text => throw (.syntaxError .trailingCharacters)
    | _ :: _, .whole => throw (.invalidLength items.length "fewer elements in array")
  | j => mismatch ("struct " ++ name) j

end RecordDecoder

/-- Read a text as a value of a certain type. -/
def decodeText {α : Type} (decoder : Origin → Decoder α) (read : Json × Option SyntaxError) :
    Except DecodeError α := do
  let a ← decoder .text read.1
  match read.2 with
  | some e => throw (.syntaxError e)
  | none => return a

end SourceSurvey.Json
