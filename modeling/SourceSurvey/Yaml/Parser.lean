import SourceSurvey.Yaml.Token

/-!
From tokens to a document.
-/

namespace SourceSurvey.Yaml

namespace Parser

/-- Tokens still to be read, and the values that have been given names. -/
structure State where
  tokens : List Token
  anchors : List (String × Yaml) := []

abbrev Step (α : Type) := State → Option (α × State)

def State.next? (s : State) : Option Token := s.tokens.head?

def State.skip (s : State) : State := { s with tokens := s.tokens.drop 1 }

/-- Whether one of these tokens comes next. -/
def State.at (s : State) (tokens : List Token) : Bool := s.next?.any tokens.contains

/-- Skip the name and tag of a value. -/
def properties (anchor : Option String) (tagged : Bool) : (fuel : Nat) → State →
    Option String × Bool × State
  | 0, s => (anchor, tagged, s)
  | fuel + 1, s =>
    match s.next? with
    | some (.anchor name) =>
      if anchor.isSome then (anchor, tagged, s) else properties (some name) tagged fuel s.skip
    | some .tag => if tagged then (anchor, tagged, s) else properties anchor true fuel s.skip
    | _ => (anchor, tagged, s)

mutual

/-- A value. In blocks it may be a block itself, and with `indentless` a sequence at the same column
as the mapping around it. -/
def node (block indentless : Bool) : (fuel : Nat) → Step Yaml
  | 0, _ => none
  | fuel + 1, s =>
    match s.next? with
    | some (.alias name) => (s.anchors.lookup name).map fun y => (y, s.skip)
    | _ => do
      let (anchor, tagged, s) := properties none false 2 s
      let (y, s) ← match s.next? with
        | some (.scalar text plain) => some (scalar text (plain && !tagged), s.skip)
        | some .flowSequenceStart => flowItems [] fuel s.skip
        | some .flowMappingStart => flowEntries [] fuel s.skip
        | some .blockSequenceStart => if block then blockItems [] fuel s.skip else none
        | some .blockMappingStart => if block then blockEntries [] fuel s.skip else none
        | some .blockEntry =>
          if indentless then indentlessItems [] fuel s
          else if anchor.isSome ∨ tagged then some (scalar "" (!tagged), s)
          else none
        | _ => if anchor.isSome ∨ tagged then some (scalar "" (!tagged), s) else none
      match anchor with
      | some name => return (y, { s with anchors := (name, y) :: s.anchors })
      | none => return (y, s)

/-- A value, or nothing before one of the tokens. -/
def nodeOr (block indentless : Bool) (ends : List Token) : (fuel : Nat) → Step Yaml
  | 0, _ => none
  | fuel + 1, s => if s.at ends then some (nothing, s) else node block indentless fuel s

def blockItems (acc : List Yaml) : (fuel : Nat) → Step Yaml
  | 0, _ => none
  | fuel + 1, s =>
    match s.next? with
    | some .blockEntry => do
      let (y, s) ← nodeOr true false [.blockEntry, .blockEnd] fuel s.skip
      blockItems (y :: acc) fuel s
    | some .blockEnd => some (sequence acc.reverse, s.skip)
    | _ => none

def indentlessItems (acc : List Yaml) : (fuel : Nat) → Step Yaml
  | 0, _ => none
  | fuel + 1, s =>
    match s.next? with
    | some .blockEntry => do
      let (y, s) ← nodeOr true false [.blockEntry, .key, .value, .blockEnd] fuel s.skip
      indentlessItems (y :: acc) fuel s
    | _ => some (sequence acc.reverse, s)

def blockEntries (acc : List (Yaml × Yaml)) : (fuel : Nat) → Step Yaml
  | 0, _ => none
  | fuel + 1, s =>
    let ends := [Token.key, .value, .blockEnd]
    let withValue (key : Yaml) (s : State) : Option (Yaml × State) :=
      match s.next? with
      | some .value => do
        let (y, s) ← nodeOr true true ends fuel s.skip
        blockEntries ((key, y) :: acc) fuel s
      | _ => blockEntries ((key, nothing) :: acc) fuel s
    match s.next? with
    | some .key => do
      let (key, s) ← nodeOr true true ends fuel s.skip
      withValue key s
    | some .value => withValue nothing s
    | some .blockEnd => some (mapping acc.reverse, s.skip)
    | _ => none

/-- The items of a sequence in brackets. A pair among them is a mapping with one entry. -/
def flowItems (acc : List Yaml) : (fuel : Nat) → Step Yaml
  | 0, _ => none
  | fuel + 1, s =>
    let afterItem (y : Yaml) (s : State) : Option (Yaml × State) :=
      match s.next? with
      | some .flowEntry => flowItems (y :: acc) fuel s.skip
      | some .flowSequenceEnd => some (sequence (y :: acc).reverse, s.skip)
      | _ => none
    match s.next? with
    | some .flowSequenceEnd => some (sequence acc.reverse, s.skip)
    | some .key => do
      let (key, s) ← nodeOr false false [.value, .flowEntry, .flowSequenceEnd] fuel s.skip
      let (value, s) ← flowValue [.flowEntry, .flowSequenceEnd] fuel s
      afterItem (mapping [(key, value)]) s
    | _ => do
      let (y, s) ← node false false fuel s
      afterItem y s

/-- The value of an entry in brackets or braces, if it has one. -/
def flowValue (ends : List Token) : (fuel : Nat) → Step Yaml
  | 0, _ => none
  | fuel + 1, s =>
    match s.next? with
    | some .value => nodeOr false false ends fuel s.skip
    | _ => some (nothing, s)

def flowEntries (acc : List (Yaml × Yaml)) : (fuel : Nat) → Step Yaml
  | 0, _ => none
  | fuel + 1, s =>
    let ends := [Token.flowEntry, .flowMappingEnd]
    let afterEntry (entry : Yaml × Yaml) (s : State) : Option (Yaml × State) :=
      match s.next? with
      | some .flowEntry => flowEntries (entry :: acc) fuel s.skip
      | some .flowMappingEnd => some (mapping (entry :: acc).reverse, s.skip)
      | _ => none
    match s.next? with
    | some .flowMappingEnd => some (mapping acc.reverse, s.skip)
    | some .key => do
      let (key, s) ← nodeOr false false (.value :: ends) fuel s.skip
      let (value, s) ← flowValue ends fuel s
      afterEntry (key, value) s
    | _ => do
      let (key, s) ← node false false fuel s
      afterEntry (key, nothing) s

end

def skipEnds (tokens : List Token) : List Token := tokens.dropWhile (· = .documentEnd)

/-- The document of a text; there must not be two. -/
def document (tokens : List Token) : Option Yaml :=
  let fuel := 3 * tokens.length + 3
  let finish (result : Option (Yaml × State)) : Option Yaml :=
    match result with
    | some (y, s) => if (skipEnds s.tokens).isEmpty then some y else none
    | none => none
  match skipEnds tokens with
  | [] => some nothing
  | rest =>
    match rest.dropWhile (· = .directive), rest with
    | .documentStart :: rest, _ =>
      match rest with
      | [] => some nothing
      | .documentEnd :: rest => if (skipEnds rest).isEmpty then some nothing else none
      | rest => finish (node true false fuel { tokens := rest })
    | _, .directive :: _ => none
    | _, rest => finish (node true false fuel { tokens := rest })

end Parser

/-- Read a document. An empty text is one without content. -/
def parse? (text : String) : Option Yaml :=
  (tokens? text.toList).bind fun tokens => Parser.document tokens.toList

end SourceSurvey.Yaml
