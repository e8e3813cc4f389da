import SourceSurvey.Text.Run
import SourceSurvey.Yaml.Basic

/-!
From characters to tokens. Indentation becomes tokens that open and close blocks, and a scalar that
a colon follows becomes a key after the fact.
-/

namespace SourceSurvey.Yaml

inductive Token where
  | scalar (text : String) (plain : Bool)
  | blockSequenceStart
  | blockMappingStart
  | blockEnd
  | blockEntry
  | flowSequenceStart
  | flowSequenceEnd
  | flowMappingStart
  | flowMappingEnd
  | flowEntry
  | key
  | value
  | anchor (name : String)
  | alias (name : String)
  | tag
  | directive
  | documentStart
  | documentEnd
deriving Repr, DecidableEq

/-- A token that may turn out to be a key. -/
structure KeyCandidate where
  /-- The number of tokens before it. -/
  position : Nat
  line : Nat
  offset : Nat
  column : Nat
  /-- Nothing else can stand here. -/
  required : Bool

structure Scanner where
  rest : List Char
  offset : Nat := 0
  line : Nat := 0
  column : Nat := 0
  /-- The columns of the open blocks, the innermost first. -/
  indents : List Nat := []
  /-- The key candidates of the open flow collections, the innermost first, and of the block around
  them. -/
  candidates : List (Option KeyCandidate) := [none]
  keyAllowed : Bool := true
  tokens : Array Token := #[]

namespace Scanner

abbrev Step := Scanner → Option Scanner

def isBlank (c : Char) : Bool := c = ' ' || c = '\t'

/-- Whether a word ends before this text. -/
def atWordEnd : List Char → Bool
  | [] => true
  | c :: _ => isBlank c || c = '\n'

def inFlow (s : Scanner) : Bool := s.candidates.length > 1

def push (t : Token) (s : Scanner) : Scanner := { s with tokens := s.tokens.push t }

/-- Step over a character. -/
def skip (s : Scanner) : Scanner :=
  match s.rest with
  | [] => s
  | '\n' :: rest => { s with rest, offset := s.offset + 1, line := s.line + 1, column := 0 }
  | _ :: rest => { s with rest, offset := s.offset + 1, column := s.column + 1 }

def skipMany : Nat → Scanner → Scanner
  | 0, s => s
  | count + 1, s => skipMany count s.skip

def skipWhile (p : Char → Bool) (s : Scanner) : Scanner :=
  skipMany (s.rest.takeWhile p).length s

/-- Open a block at a column beyond that of the innermost one. -/
def openBlock (column position : Nat) (t : Token) (s : Scanner) : Scanner :=
  if !s.inFlow && s.indents.head?.all (· < column) then
    { s with
      indents := column :: s.indents
      tokens := s.tokens.insertIdxIfInBounds position t }
  else s

/-- Close the blocks that lie beyond a column, or all of them. -/
def closeBlocks (column : Option Nat) (s : Scanner) : Scanner :=
  if s.inFlow then s
  else
    let closed := s.indents.takeWhile fun i => column.all (· < i)
    { s with
      indents := s.indents.drop closed.length
      tokens := s.tokens ++ (closed.map fun _ => Token.blockEnd).toArray }

/-- Give up the current candidate, which must not be required. -/
def dropCandidate : Step := fun s =>
  match s.candidates with
  | some k :: outer => if k.required then none else some { s with candidates := none :: outer }
  | _ => some s

/-- The token that comes next may be a key, if one is allowed here. -/
def saveCandidate : Step := fun s =>
  if s.keyAllowed then do
    let s ← s.dropCandidate
    let candidate : KeyCandidate :=
      ⟨s.tokens.size, s.line, s.offset, s.column, !s.inFlow && s.indents.head? = some s.column⟩
    return { s with candidates := some candidate :: s.candidates.drop 1 }
  else some s

/-- How far from its colon a key may begin. -/
def maxKeyLength : Nat := 1024

/-- Give up candidates that lie too far back: on a line before or many characters away. -/
def dropStale : Step := fun s => do
  let candidates ← s.candidates.mapM fun
    | some k =>
      if k.line < s.line ∨ k.offset + maxKeyLength < s.offset then
        if k.required then none else some none
      else some (some k)
    | none => some none
  return { s with candidates }

/-- Skip blanks, comments and line breaks before the next token. A tab may not stand where a block
may begin. -/
def skipToToken : (fuel : Nat) → Scanner → Scanner
  | 0, s => s
  | fuel + 1, s =>
    let tabs := s.inFlow || !s.keyAllowed
    let s := s.skipWhile fun c => c = ' ' || (tabs && c = '\t')
    let s := if s.rest.head? = some '#' then s.skipWhile (· ≠ '\n') else s
    match s.rest with
    | '\n' :: _ => skipToToken fuel { s.skip with keyAllowed := !s.inFlow || s.keyAllowed }
    | _ => s

def atDocumentMark (mark : String) (s : Scanner) : Bool :=
  s.column = 0 && mark.toList.isPrefixOf s.rest && atWordEnd (s.rest.drop 3)

def atAnyDocumentMark (s : Scanner) : Bool := s.atDocumentMark "---" || s.atDocumentMark "..."

/-- Blanks and line breaks inside a scalar: blanks that will be kept if no line break follows, or
the number of line breaks. -/
structure Break where
  blanks : List Char := []
  lines : Nat := 0

/-- What a break between two parts of a scalar stands for: one line break for a blank, more of them
for one less. -/
def Break.folded (b : Break) : List Char :=
  if b.lines = 0 then b.blanks
  else if b.lines = 1 then [' ']
  else List.replicate (b.lines - 1) '\n'

/-- Read blanks and line breaks. In blocks, no tab may stand before the column `indent`. -/
def scanBreak (indent : Nat) (b : Break) : (fuel : Nat) → Scanner → Option (Break × Scanner)
  | 0, _ => none
  | fuel + 1, s =>
    match s.rest with
    | '\n' :: _ => scanBreak indent ⟨[], b.lines + 1⟩ fuel s.skip
    | c :: _ =>
      if isBlank c then
        if b.lines > 0 ∧ s.column < indent ∧ c = '\t' then none
        else scanBreak indent (if b.lines = 0 then { b with blanks := b.blanks ++ [c] } else b) fuel
          s.skip
      else some (b, s)
    | [] => some (b, s)

def hexEscape (size : Nat) (s : Scanner) : Option (List Char × Scanner) := do
  let digits := s.rest.take size
  guard (digits.length = size)
  let n ← Text.hexNumber? digits
  guard n.isValidChar
  return ([Char.ofNat n], skipMany size s)

/-- What stands after a backslash between double quotes. -/
def escape (s : Scanner) : Option (List Char × Scanner) :=
  match s.rest with
  | [] => none
  | c :: _ =>
    let plain (d : Char) := some ([d], s.skip)
    match c with
    | '0' => plain '\x00'
    | 'a' => plain '\x07'
    | 'b' => plain '\x08'
    | 't' | '\t' => plain '\t'
    | 'n' => plain '\n'
    | 'v' => plain '\x0b'
    | 'f' => plain '\x0c'
    | 'r' => plain '\r'
    | 'e' => plain '\x1b'
    | ' ' | '"' | '/' | '\\' | '\'' => plain c
    | 'N' => plain '\u0085'
    | '_' => plain '\u00a0'
    | 'L' => plain '\u2028'
    | 'P' => plain '\u2029'
    | 'x' => hexEscape 2 s.skip
    | 'u' => hexEscape 4 s.skip
    | 'U' => hexEscape 8 s.skip
    | _ => none

/-- A scalar in quotes, after the opening one. -/
def quotedScalar (quote : Char) (acc : List Char) : (fuel : Nat) → Scanner →
    Option (List Char × Scanner)
  | 0, _ => none
  | fuel + 1, s =>
    if s.atAnyDocumentMark then none
    else match s.rest with
    | [] => none
    | c :: next =>
      if c = quote then
        if quote = '\'' ∧ next.head? = some '\'' then
          quotedScalar quote (acc ++ ['\'']) fuel s.skip.skip
        else some (acc, s.skip)
      else if c = '\\' ∧ quote = '"' then
        if next.head? = some '\n' then do
          let (b, s) ← scanBreak 0 ⟨[], 0⟩ fuel s.skip.skip
          quotedScalar quote (acc ++ List.replicate b.lines '\n') fuel s
        else do
          let (chars, s) ← escape s.skip
          quotedScalar quote (acc ++ chars) fuel s
      else if isBlank c ∨ c = '\n' then do
        let (b, s) ← scanBreak 0 {} fuel s
        quotedScalar quote (acc ++ b.folded) fuel s
      else quotedScalar quote (acc ++ [c]) fuel s.skip

/-- Characters that end a plain scalar in a flow collection. -/
def isFlowIndicator (c : Char) : Bool :=
  c = ',' || c = '[' || c = ']' || c = '\x7b' || c = '\x7d'

/-- The characters of a plain scalar up to a blank; nothing if a colon stands where it must not. -/
def plainWord (flow : Bool) (acc : List Char) : List Char → Option (List Char)
  | [] => some acc
  | c :: rest =>
    if isBlank c ∨ c = '\n' then some acc
    else if flow ∧ c = ':' ∧ rest.head?.any (fun d => isFlowIndicator d || d = '?') then none
    else if c = ':' ∧ atWordEnd rest then some acc
    else if flow ∧ isFlowIndicator c then some acc
    else plainWord flow (acc ++ [c]) rest

/-- A scalar without quotes: words on one or more lines, all of them beyond the innermost block. -/
def plainScalar (indent : Nat) (acc : List Char) (b : Break) : (fuel : Nat) → Scanner →
    Option (List Char × Break × Scanner)
  | 0, _ => none
  | fuel + 1, s =>
    if s.atAnyDocumentMark ∨ s.rest.head? = some '#' then some (acc, b, s)
    else do
      let word ← plainWord s.inFlow [] s.rest
      if word.isEmpty then return (acc, b, s)
      let acc := acc ++ b.folded ++ word
      let s := skipMany word.length s
      match s.rest with
      | c :: _ =>
        if isBlank c ∨ c = '\n' then
          let (b, s) ← scanBreak indent {} fuel s
          if !s.inFlow ∧ s.column < indent then return (acc, b, s)
          plainScalar indent acc b fuel s
        else return (acc, {}, s)
      | [] => return (acc, {}, s)

/-- Skip the indentation of a line, up to a column or, if none is given, all of it. -/
def skipIndent (indent : Option Nat) (s : Scanner) : Scanner :=
  let spaces := (s.rest.takeWhile (· = ' ')).length
  skipMany (match indent with
    | some i => min spaces (i - s.column)
    | none => spaces) s

/-- The empty lines before the next line of a block scalar, and the greatest column in them. -/
def blockBreaks (indent : Option Nat) (lines greatest : Nat) : (fuel : Nat) → Scanner →
    Option (Nat × Nat × Scanner)
  | 0, _ => none
  | fuel + 1, s =>
    let s := s.skipIndent indent
    let greatest := max greatest s.column
    match s.rest with
    | '\n' :: _ => blockBreaks indent (lines + 1) greatest fuel s.skip
    | '\t' :: _ => if indent.all (s.column < ·) then none else some (lines, greatest, s)
    | _ => some (lines, greatest, s)

/-- The lines of a block scalar from here on. `ended` says that a line has been read whose end is
not in the text yet, `empty` counts the empty lines after it, and `indented` says whether it began
with a blank. -/
def blockLines (folds : Bool) (indent : Nat) (acc : List Char) (ended indented : Bool)
    (empty : Nat) : (fuel : Nat) → Scanner → Option (List Char × Bool × Nat × Scanner)
  | 0, _ => none
  | fuel + 1, s =>
    if s.column ≠ indent ∨ s.rest.isEmpty then some (acc, ended, empty, s)
    else do
      let blank := s.rest.head?.any isBlank
      let lineEnd :=
        if !ended then []
        else if folds ∧ !indented ∧ !blank then (if empty = 0 then [' '] else [])
        else ['\n']
      let text := s.rest.takeWhile (· ≠ '\n')
      let s := skipMany text.length s
      let ended := !s.rest.isEmpty
      let (lines, _, s) ← blockBreaks (some indent) 0 0 fuel s.skip
      blockLines folds indent (acc ++ lineEnd ++ List.replicate empty '\n' ++ text) ended blank
        lines fuel s

/-- What happens to the line breaks at the end of a block scalar. -/
inductive Chomping where
  | strip
  | clip
  | keep

/-- The signs after a bar or angle bracket: what to do with the end and how far to indent. -/
def blockHeader (s : Scanner) : Option (Chomping × Option Nat × Scanner) :=
  let chomping (s : Scanner) : Option (Chomping × Scanner) :=
    match s.rest with
    | '+' :: _ => some (.keep, s.skip)
    | '-' :: _ => some (.strip, s.skip)
    | _ => none
  let increment (s : Scanner) : Option (Option (Nat × Scanner)) :=
    match s.rest with
    | c :: _ =>
      if c = '0' then none
      else if '1' ≤ c ∧ c ≤ '9' then some (some (c.toNat - '0'.toNat, s.skip))
      else some none
    | [] => some none
  match chomping s with
  | some (chomping, s) =>
    match increment s with
    | none => none
    | some (some (n, s)) => some (chomping, some n, s)
    | some none => some (chomping, none, s)
  | none =>
    match increment s with
    | none => none
    | some none => some (.clip, none, s)
    | some (some (n, s)) =>
      match chomping s with
      | some (chomping, s) => some (chomping, some n, s)
      | none => some (.clip, some n, s)

/-- A block scalar after its first sign. -/
def blockScalar (folds : Bool) (fuel : Nat) (s : Scanner) : Option (List Char × Scanner) := do
  let (chomping, increment, s) ← blockHeader s
  let s := s.skipWhile isBlank
  let s := if s.rest.head? = some '#' then s.skipWhile (· ≠ '\n') else s
  guard (s.rest.head?.all (· = '\n'))
  let s := s.skip
  let given := increment.map fun n => (s.indents.head?.getD 0) + n
  let (empty, greatest, s) ← blockBreaks given 0 0 fuel s
  let indent := given.getD (max (max greatest ((s.indents.head?.map (· + 1)).getD 0)) 1)
  let (text, ended, empty, s) ← blockLines folds indent [] false false empty fuel s
  let tail := match chomping with
    | .strip => []
    | .clip => if ended then ['\n'] else []
    | .keep => (if ended then ['\n'] else []) ++ List.replicate empty '\n'
  return (text ++ tail, s)

def isNameChar (c : Char) : Bool :=
  ('a' ≤ c && c ≤ 'z') || ('A' ≤ c && c ≤ 'Z') || ('0' ≤ c && c ≤ '9') || c = '_' || c = '-'

/-- The name of an anchor. -/
def anchorName (s : Scanner) : Option (String × Scanner) :=
  let name := s.rest.takeWhile isNameChar
  let s := skipMany name.length s
  if !name.isEmpty ∧ (atWordEnd s.rest ∨ s.rest.head?.any "?:,]\x7d%@`".toList.contains) then
    some (String.ofList name, s)
  else none

/-- Whether a plain scalar may begin with this text. -/
def startsPlain (flow : Bool) : List Char → Bool
  | [] => false
  | c :: rest =>
    !(isBlank c || c = '\n' || "-?:,[]\x7b\x7d#&*!|>'\"%@`".toList.contains c) ||
      (c = '-' && !rest.head?.any isBlank) || (!flow && (c = '?' || c = ':') && !atWordEnd rest)

/-- Read a token that begins with an indicator or stands between quotes, or a plain scalar. -/
def token (fuel : Nat) : Step := fun s =>
  match s.rest with
  | [] => none
  | c :: next =>
    let ended := atWordEnd next
    let begins (t : Token) : Option Scanner := do
      let s ← s.saveCandidate
      return { s.skip.push t with candidates := none :: s.candidates, keyAllowed := true }
    let ends (t : Token) : Option Scanner := do
      let s ← s.dropCandidate
      let outer := if s.inFlow then s.candidates.drop 1 else s.candidates
      return { s.skip.push t with candidates := outer, keyAllowed := false }
    let named (t : String → Token) : Option Scanner := do
      let s ← s.saveCandidate
      let (name, s) ← anchorName s.skip
      return { s.push (t name) with keyAllowed := false }
    if c = '[' then begins .flowSequenceStart
    else if c = '\x7b' then begins .flowMappingStart
    else if c = ']' then ends .flowSequenceEnd
    else if c = '\x7d' then ends .flowMappingEnd
    else if c = ',' then do
      let s ← s.dropCandidate
      return { s.skip.push .flowEntry with keyAllowed := true }
    else if c = '-' ∧ ended then do
      if !s.inFlow ∧ !s.keyAllowed then none
      let s ← (s.openBlock s.column s.tokens.size .blockSequenceStart).dropCandidate
      return { s.skip.push .blockEntry with keyAllowed := true }
    else if c = '?' ∧ (s.inFlow ∨ ended) then do
      if !s.inFlow ∧ !s.keyAllowed then none
      let s ← (s.openBlock s.column s.tokens.size .blockMappingStart).dropCandidate
      return { s.skip.push .key with keyAllowed := !s.inFlow }
    else if c = ':' ∧ (s.inFlow ∨ ended) then
      match s.candidates with
      | some k :: outer =>
        let s := { s with tokens := s.tokens.insertIdxIfInBounds k.position .key }
        let s := s.openBlock k.column k.position .blockMappingStart
        some { s.skip.push .value with candidates := none :: outer, keyAllowed := false }
      | _ => do
        if !s.inFlow ∧ !s.keyAllowed then none
        let s := s.openBlock s.column s.tokens.size .blockMappingStart
        return { s.skip.push .value with keyAllowed := !s.inFlow }
    else if c = '*' then named .alias
    else if c = '&' then named .anchor
    else if c = '!' then do
      let s ← s.saveCandidate
      let s := s.skipWhile fun c => !isBlank c && c ≠ '\n' && !(s.inFlow && c = ',')
      return { s.push .tag with keyAllowed := false }
    else if (c = '|' ∨ c = '>') ∧ !s.inFlow then do
      let s ← s.dropCandidate
      let (text, s) ← blockScalar (c = '>') fuel s.skip
      return { s.push (.scalar (String.ofList text) false) with keyAllowed := true }
    else if c = '\'' ∨ c = '"' then do
      let s ← s.saveCandidate
      let (text, s) ← quotedScalar c [] fuel s.skip
      return { s.push (.scalar (String.ofList text) false) with keyAllowed := false }
    else if startsPlain s.inFlow s.rest then do
      let s ← s.saveCandidate
      let indent := (s.indents.head?.map (· + 1)).getD 0
      let (text, b, s) ← plainScalar indent [] {} fuel s
      return { s.push (.scalar (String.ofList text) true) with keyAllowed := b.lines > 0 }
    else none

/-- Read tokens to the end of the text. -/
def run : (fuel : Nat) → Scanner → Option (Array Token)
  | 0, _ => none
  | fuel + 1, s => do
    let s := s.skipToToken (s.rest.length + 1)
    let s ← s.dropStale
    let s := s.closeBlocks (some s.column)
    let mark (t : Token) : Option Scanner := do
      let s ← (s.closeBlocks none).dropCandidate
      return { (skipMany 3 s).push t with keyAllowed := false }
    if s.rest.isEmpty then
      let s ← ({ s with line := s.line + 1 }.closeBlocks none).dropCandidate
      return s.tokens
    else if s.column = 0 ∧ s.rest.head? = some '%' then
      let s ← (s.closeBlocks none).dropCandidate
      run fuel { (s.skipWhile (· ≠ '\n')).push .directive with keyAllowed := false }
    else if s.atDocumentMark "---" then run fuel (← mark .documentStart)
    else if s.atDocumentMark "..." then run fuel (← mark .documentEnd)
    else run fuel (← s.token (s.rest.length + 2))

end Scanner

/-- Characters that may stand in a document. -/
def isAllowed (c : Char) : Bool :=
  let n := c.toNat
  c = '\t' || c = '\n' || c = '\r' || (32 ≤ n && n ≤ 126) || n = 0x85 || (0xA0 ≤ n && n ≠ 0xFFFE &&
    n ≠ 0xFFFF)

/-- All line breaks as line feeds. -/
def unifyBreaks : List Char → List Char
  | [] => []
  | '\r' :: '\n' :: rest => '\n' :: unifyBreaks rest
  | c :: rest => (if c = '\r' ∨ c = '\u0085' then '\n' else c) :: unifyBreaks rest

/-- The tokens of a text, which may begin with a byte order mark. -/
def tokens? (text : List Char) : Option (Array Token) :=
  let text := match text with
    | '\ufeff' :: rest => rest
    | text => text
  if text.all isAllowed then
    let chars := unifyBreaks text
    Scanner.run (2 * chars.length + 2) { rest := chars }
  else none

end SourceSurvey.Yaml
