import SourceSurvey.Regex.Engine

/-!
Reading regular expressions: alternatives, repetitions, groups with and without names, inline
flags, character classes with set operations, escapes, and the free-spacing mode. There is no
look-around and there are no references to earlier groups. What properties of characters are called,
and how large an expression may be, is up to the engine.
-/

namespace SourceSurvey

namespace Regex

/-- Why a text is not taken as a regular expression. -/
inductive SyntaxError where
  | unclosedGroup
  | unopenedGroup
  | emptyGroupName
  | invalidGroupName
  | duplicateGroupName (name : String)
  | lookAround
  | backReference
  | unclosedClass
  | invalidRange
  | invalidClassItem
  | invalidEscape
  | invalidCodePoint
  | unknownProperty
  | missingRepetitionTarget
  | invalidCount
  | unclosedCount
  | invalidFlags
  | matchesPartOfCharacter
  | unicodeTurnedOff
  | tooDeep
  | tooLarge
deriving Repr, DecidableEq

/-- The most room that an expression may take. -/
def maxRoom : Nat := 10 * 1024 * 1024

/-- The first line of the report; the report goes on with a drawing of the place. -/
def SyntaxError.headline : SyntaxError → String
  | .tooLarge => "Compiled regex exceeds size limit of " ++ toString maxRoom ++ " bytes."
  | _ => "regex parse error:"

structure Flags where
  ignoreCase : Bool := false
  multiLine : Bool := false
  dotAll : Bool := false
  swapGreed : Bool := false
  unicode : Bool := true
  carriageReturns : Bool := false
  freeSpacing : Bool := false

namespace Parser

/-- What has been read so far besides the expression itself. -/
structure State where
  rest : List Char
  flags : Flags
  groups : Nat
  names : List String

/-- In free-spacing mode, drop blanks and comments up to the end of their line. -/
def skipSpacing (freeSpacing : Bool) (cs : List Char) : List Char :=
  if freeSpacing then go cs false else cs
where
  go : List Char → Bool → List Char
    | [], _ => []
    | c :: cs, inComment =>
      if inComment then go cs (c ≠ '\n')
      else if Text.isBlank c then go cs false
      else if c = '#' then go cs true
      else c :: cs

def State.skip (st : State) : State := { st with rest := skipSpacing st.flags.freeSpacing st.rest }

/-- Flags that change what follows: each letter once, at most one minus sign, not at the end. -/
def setFlag (flags : Flags) (on : Bool) : Char → Option Flags
  | 'i' => some { flags with ignoreCase := on }
  | 'm' => some { flags with multiLine := on }
  | 's' => some { flags with dotAll := on }
  | 'U' => some { flags with swapGreed := on }
  | 'u' => some { flags with unicode := on }
  | 'R' => some { flags with carriageReturns := on }
  | 'x' => some { flags with freeSpacing := on }
  | _ => none

/-- Read flags up to the bracket or colon that ends them. -/
def flagList (flags : Flags) (seen : List Char) (on : Bool) (dangling : Bool) :
    List Char → Except SyntaxError (Flags × Bool × List Char)
  | [] => .error .unclosedGroup
  | c :: cs =>
    if c = ':' ∨ c = ')' then
      if dangling then .error .invalidFlags else .ok (flags, seen.isEmpty, c :: cs)
    else if c = '-' then
      if on then flagList flags ('-' :: seen) false true cs else .error .invalidFlags
    else if seen.contains c then .error .invalidFlags
    else match setFlag flags on c with
      | some flags => flagList flags (c :: seen) on false cs
      | none => .error .invalidFlags

def isNameStart (c : Char) : Bool := c = '_' || Text.isAlphabetic c

def isNamePart (c : Char) : Bool :=
  c = '_' || c = '.' || c = '[' || c = ']' || Text.isAlphabetic c || Text.isDigit c

/-- A group's name up to the bracket that closes it. -/
def groupName (st : State) : Except SyntaxError (String × State) :=
  let name := st.rest.takeWhile (· ≠ '>')
  match st.rest.dropWhile (· ≠ '>') with
  | [] => .error .unclosedGroup
  | _ :: rest =>
    match name with
    | [] => .error .emptyGroupName
    | c :: cs =>
      let text := String.ofList name
      if !(isNameStart c && cs.all isNamePart) then .error .invalidGroupName
      else if st.names.contains text then .error (.duplicateGroupName text)
      else .ok (text, { st with rest, names := text :: st.names })

/-- A code point that is a character. -/
def codePoint (digits : List Char) : Except SyntaxError Char :=
  match Text.hexNumber? digits with
  | some n => if digits.isEmpty ∨ !n.isValidChar then .error .invalidCodePoint
    else .ok (Char.ofNat n)
  | none => .error .invalidCodePoint

/-- A character given by hexadecimal digits, `size` of them or any number within braces. -/
def hexEscape (size : Nat) (rest : List Char) : Except SyntaxError (Char × List Char) :=
  match rest with
  | '\x7b' :: body =>
    match body.dropWhile (· ≠ '\x7d') with
    | [] => .error .invalidCodePoint
    | _ :: rest => do return (← codePoint (body.takeWhile (· ≠ '\x7d')), rest)
  | _ =>
    if rest.length < size then .error .invalidCodePoint
    else do return (← codePoint (rest.take size), rest.drop size)

def asciiWord (c : Char) : Bool := c.toNat < 128 && Text.isWord c

def asciiDigit (c : Char) : Bool := '0' ≤ c && c ≤ '9'

def asciiBlank (c : Char) : Bool := c = ' ' || ('\t' ≤ c && c ≤ '\r')

/-- The classes named by a single letter. -/
def letterClass (unicode : Bool) : Char → Option CharSet
  | 'd' => some (if unicode then .digit else .ascii asciiDigit)
  | 's' => some (if unicode then .blank else .ascii asciiBlank)
  | 'w' => some (if unicode then .word else .ascii asciiWord)
  | 'D' => some (.compl .digit)
  | 'S' => some (.compl .blank)
  | 'W' => some (.compl .word)
  | _ => none

/-- The bracketed class names of the form `[:alpha:]`. -/
def namedClass : String → Option (Char → Bool)
  | "alnum" => some fun c => Text.isAsciiLetter c || asciiDigit c
  | "alpha" => some Text.isAsciiLetter
  | "ascii" => some (·.toNat < 128)
  | "blank" => some fun c => c = ' ' || c = '\t'
  | "cntrl" => some fun c => c.toNat < 32 || c.toNat = 127
  | "digit" => some asciiDigit
  | "graph" => some fun c => '!' ≤ c && c ≤ '~'
  | "lower" => some fun c => 'a' ≤ c && c ≤ 'z'
  | "print" => some fun c => ' ' ≤ c && c ≤ '~'
  | "punct" => some fun c => '!' ≤ c && c ≤ '~' && !(Text.isAsciiLetter c || asciiDigit c)
  | "space" => some asciiBlank
  | "upper" => some fun c => 'A' ≤ c && c ≤ 'Z'
  | "word" => some asciiWord
  | "xdigit" => some fun c => (Text.hexDigit? c).isSome
  | _ => none

/-- The class after `\p`: one letter, or a name within braces. -/
def propertyClass [Engine] (rest : List Char) : Except SyntaxError (CharSet × List Char) :=
  let lookUp (name : List Char) : Except SyntaxError CharSet :=
    match Engine.property? name with
    | some s => .ok s
    | none => .error .unknownProperty
  match rest with
  | [] => .error .invalidEscape
  | '\x7b' :: body =>
    match body.dropWhile (· ≠ '\x7d') with
    | [] => .error .invalidEscape
    | _ :: rest => do return (← lookUp (body.takeWhile (· ≠ '\x7d')), rest)
  | c :: rest => do return (← lookUp [c], rest)

/-- One character, whatever its case if the flags say so. -/
def charSet (flags : Flags) (c : Char) : CharSet :=
  if flags.ignoreCase then
    if flags.unicode then .oneOf (Text.caseVariants c)
    else .oneOf [c, c.toLower, c.toUpper]
  else .oneOf [c]

/-- A set, closed under changes of case if the flags say so. Where characters are bytes, only those
of ASCII have a case. -/
def caseClosed (flags : Flags) (s : CharSet) : CharSet :=
  if !flags.ignoreCase then s
  else if flags.unicode then .ignoringCase s
  else .union s (.ascii fun c => s.contains c.toLower || s.contains c.toUpper)

/-- What a backslash and the characters after it stand for. -/
inductive Escape where
  | char (c : Char)
  | charSet (s : CharSet)
  | place (a : Anchor)

/-- Whether a backslash before the character means the character itself: all of ASCII but letters,
digits and angle brackets. -/
def isEscapable (c : Char) : Bool :=
  c.toNat < 128 && !Text.isAsciiLetter c && !asciiDigit c && c ≠ '<' && c ≠ '>'

/-- The special places that may be named in braces after `\b`. -/
def wordPlace (isWord : Char → Bool) (rest : List Char) : Anchor × List Char :=
  let named := [("\x7bstart\x7d", Anchor.wordStart isWord), ("\x7bend\x7d", .wordEnd isWord),
    ("\x7bstart-half\x7d", .wordStartHalf isWord), ("\x7bend-half\x7d", .wordEndHalf isWord)]
  match named.find? fun (name, _) => name.toList.isPrefixOf rest with
  | some (name, place) => (place, rest.drop name.length)
  | none => (.wordBoundary isWord, rest)

/-- Read what follows a backslash. -/
def escape [Engine] (flags : Flags) (rest : List Char) :
    Except SyntaxError (Escape × List Char) :=
  let isWord := if flags.unicode then Text.isWord else asciiWord
  match rest with
  | [] => .error .invalidEscape
  | c :: rest =>
    if asciiDigit c then .error .backReference
    else if c = 'x' then do
      let (c, after) ← hexEscape 2 rest
      if !flags.unicode ∧ c.toNat ≥ 128 ∧ rest.head? ≠ some '\x7b' then .error .matchesPartOfCharacter
      else return (.char c, after)
    else if c = 'u' then return (← hexEscape 4 rest).map .char id
    else if c = 'U' then return (← hexEscape 8 rest).map .char id
    else if !flags.unicode ∧ (c = 'p' ∨ c = 'P') then .error .unicodeTurnedOff
    else if c = 'p' then return (← propertyClass rest).map (.charSet ∘ caseClosed flags) id
    else if c = 'P' then
      return (← propertyClass rest).map (.charSet ∘ .compl ∘ caseClosed flags) id
    else match letterClass flags.unicode c with
      | some s =>
        if !flags.unicode && (c = 'D' || c = 'S' || c = 'W') then .error .matchesPartOfCharacter
        else .ok (.charSet s, rest)
      | none =>
        if isEscapable c then .ok (.char c, rest)
        else match c with
          | 'a' => .ok (.char '\x07', rest)
          | 'f' => .ok (.char '\x0c', rest)
          | 't' => .ok (.char '\t', rest)
          | 'n' => .ok (.char '\n', rest)
          | 'r' => .ok (.char '\r', rest)
          | 'v' => .ok (.char '\x0b', rest)
          | 'A' => .ok (.place .textStart, rest)
          | 'z' => .ok (.place .textEnd, rest)
          | 'b' => .ok ((wordPlace isWord rest).map .place id)
          | 'B' => .ok (.place (.notWordBoundary isWord), rest)
          | '<' => .ok (.place (.wordStart isWord), rest)
          | '>' => .ok (.place (.wordEnd isWord), rest)
          | _ => .error .invalidEscape

/-- Set operations inside a class. -/
inductive SetOperator where
  | intersection
  | difference
  | symmetricDifference

def SetOperator.apply : SetOperator → CharSet → CharSet → CharSet
  | intersection, a, b => .inter a b
  | difference, a, b => .inter a (.compl b)
  | symmetricDifference, a, b => CharSet.symmDiff a b

def setOperator? : List Char → Option (SetOperator × List Char)
  | '&' :: '&' :: rest => some (.intersection, rest)
  | '-' :: '-' :: rest => some (.difference, rest)
  | '~' :: '~' :: rest => some (.symmetricDifference, rest)
  | _ => none

/-- A class name such as `[:alpha:]`, after its opening bracket. -/
def namedClass? (flags : Flags) (rest : List Char) : Option (CharSet × List Char) :=
  match rest with
  | ':' :: body =>
    let (negated, body) := match body with
      | '^' :: body => (true, body)
      | _ => (false, body)
    let name := body.takeWhile (· ≠ ':')
    match body.dropWhile (· ≠ ':') with
    | ':' :: ']' :: rest => (namedClass (String.ofList name)).map fun p =>
        let s := caseClosed flags (.ascii p)
        (if negated then .compl s else s, rest)
    | _ => none
  | _ => none

/-- One end of a range, or a whole item of a class: a character or an escaped class. -/
def classItem [Engine] (flags : Flags) : List Char → Except SyntaxError ((Char ⊕ CharSet) × List Char)
  | [] => .error .unclosedClass
  | '\\' :: rest => do
    let (escaped, rest) ← escape flags rest
    match escaped with
    | .char c =>
      if !flags.unicode ∧ c.toNat ≥ 128 then .error .unicodeTurnedOff else return (.inl c, rest)
    | .charSet s => return (.inr s, rest)
    | .place _ => .error .invalidClassItem
  | c :: rest =>
    if !flags.unicode ∧ c.toNat ≥ 128 then .error .unicodeTurnedOff else .ok (.inl c, rest)

/-- An item of a class that is not a nested class: a character, a range or an escaped class. -/
def classRange [Engine] (flags : Flags) (rest : List Char) :
    Except SyntaxError (CharSet × List Char) := do
  let skip := skipSpacing flags.freeSpacing
  let (first, rest) ← classItem flags rest
  let single := match first with
    | .inl c => CharSet.oneOf [c]
    | .inr s => s
  match skip rest with
  | [] => .error .unclosedClass
  | '-' :: after =>
    match skip after with
    | [] => .error .unclosedClass
    | ']' :: _ | '-' :: _ => return (single, '-' :: after)
    | after => do
      let (last, rest) ← classItem flags after
      match first, last with
      | .inl a, .inl b => if a ≤ b then return (.range a b, rest) else .error .invalidRange
      | _, _ => .error .invalidClassItem
  | rest => return (single, rest)

/-- The beginning of a class: a caret, then minus signs and at most one closing bracket that
stand for themselves. -/
def classStart (flags : Flags) (rest : List Char) : Bool × CharSet × List Char :=
  let skip := skipSpacing flags.freeSpacing
  let rest := skip rest
  let (negated, rest) := match rest with
    | '^' :: rest => (true, skip rest)
    | _ => (false, rest)
  let dashes := rest.takeWhile (· = '-')
  let rest := skip (rest.dropWhile (· = '-'))
  match dashes, rest with
  | [], ']' :: rest => (negated, .oneOf [']'], rest)
  | [], _ => (negated, .none, rest)
  | _, _ => (negated, .oneOf ['-'], rest)

/-- How a class is read after its opening bracket up to its closing one, given the part before a set
operation and what stands since then. -/
abbrev ClassReader :=
  Option (SetOperator × CharSet) → CharSet → List Char → Except SyntaxError (CharSet × List Char)

/-- All that a class has so far. -/
def wholeClass (flags : Flags) (pending : Option (SetOperator × CharSet)) (items : CharSet) :
    CharSet :=
  match pending with
  | some (op, before) => op.apply before (caseClosed flags items)
  | none => items

/-- Read one item, nested class or set operator of a class, and leave the rest to `read`. -/
def classStep [Engine] (flags : Flags) (read : ClassReader) (pending : Option (SetOperator × CharSet))
    (items : CharSet) (rest : List Char) : Except SyntaxError (CharSet × List Char) :=
  match skipSpacing flags.freeSpacing rest with
  | [] => .error .unclosedClass
  | ']' :: rest => .ok (wholeClass flags pending items, rest)
  | '[' :: inner =>
    match namedClass? flags inner with
    | some (s, rest) => read pending (.union items s) rest
    | none => do
      let (negated, first, rest) := classStart flags inner
      let (s, rest) ← read none first rest
      let s := caseClosed flags s
      read pending (.union items (if negated then .compl s else s)) rest
  | rest =>
    match setOperator? rest with
    | some (op, rest) =>
      read (some (op, caseClosed flags (wholeClass flags pending items))) .none rest
    | none => do
      let (s, rest) ← classRange flags rest
      read pending (.union items s) rest

/-- Read a class in at most as many steps as there is fuel. -/
def classBody [Engine] (flags : Flags) : (fuel : Nat) → ClassReader
  | 0, _, _, _ => .error .unclosedClass
  | fuel + 1, pending, items, rest => classStep flags (classBody flags fuel) pending items rest

/-- A whole class, after its opening bracket. -/
def bracketClass [Engine] (flags : Flags) (rest : List Char) :
    Except SyntaxError (CharSet × List Char) := do
  let (negated, first, rest) := classStart flags rest
  let (s, rest) ← classBody flags (rest.length + 1) none first rest
  let s := caseClosed flags s
  if negated && !flags.unicode then .error .matchesPartOfCharacter
  else return (if negated then .compl s else s, rest)

/-- A decimal count below 2 ^ 32, with blanks allowed around it. -/
def count (rest : List Char) : Except SyntaxError (Nat × List Char) :=
  let rest := rest.dropWhile Text.isBlank
  let digits := rest.takeWhile asciiDigit
  let n := digits.foldl (fun n c => n * 10 + (c.toNat - '0'.toNat)) 0
  if digits.isEmpty ∨ Nat.pow 2 32 ≤ n then .error .invalidCount
  else .ok (n, (rest.dropWhile asciiDigit).dropWhile Text.isBlank)

/-- The counts of a repetition, after its opening brace. -/
def counts (flags : Flags) (rest : List Char) :
    Except SyntaxError ((Nat × Option Nat) × List Char) := do
  let skip := skipSpacing flags.freeSpacing
  let (least, rest) ← count (skip rest)
  match rest with
  | '\x7d' :: rest => return ((least, some least), rest)
  | ',' :: rest =>
    match skip rest with
    | '\x7d' :: rest => return ((least, none), rest)
    | rest => do
      let (most, rest) ← count rest
      match rest with
      | '\x7d' :: rest =>
        if least ≤ most then return ((least, some most), rest) else throw .invalidCount
      | _ => throw .unclosedCount
  | _ => throw .unclosedCount

/-- How often the thing before is to be repeated, if something of the kind follows. -/
def quantifier? (flags : Flags) : List Char →
    Except SyntaxError (Option ((Nat × Option Nat) × List Char))
  | '*' :: rest => .ok (some ((0, none), rest))
  | '+' :: rest => .ok (some ((1, none), rest))
  | '?' :: rest => .ok (some ((0, some 1), rest))
  | '\x7b' :: rest => do return some (← counts flags rest)
  | _ => .ok none

/-- A part of an expression, and how deep groups, repetitions and lists are nested in it. -/
structure Part where
  regex : Regex
  depth : Nat

def Part.repeated (p : Part) (bounds : Bounds) : Part :=
  match p.regex with
  | set s => ⟨span s bounds, p.depth + 1⟩
  | r => ⟨«repeat» r bounds, p.depth + 1⟩

/-- How deep a list is nested: a list of one part is that part. -/
def listDepth (parts : List Part) : Nat :=
  (if parts.length ≤ 1 then 0 else 1) + (parts.map (·.depth)).foldl max 0

/-- Parts one after the other, latest first. -/
def branch (items : List Part) : Part :=
  ⟨items.foldl (fun r item => seq item.regex r) empty, listDepth items⟩

/-- Alternatives, latest first. -/
def alternation (last : Part) (earlier : List Part) : Part :=
  ⟨earlier.foldl (fun r part => alt part.regex r) last.regex, listDepth (last :: earlier)⟩

/-- The repetitions that follow an item, each applied to what stands before it. -/
def repetitions (flags : Flags) (r : Part) : (fuel : Nat) → List Char →
    Except SyntaxError (Part × List Char)
  | 0, rest => .ok (r, rest)
  | fuel + 1, rest => do
    let skipped := skipSpacing flags.freeSpacing rest
    match ← quantifier? flags skipped with
    | none => return (r, skipped)
    | some ((least, most), rest) =>
      let (lazily, rest) := match skipSpacing flags.freeSpacing rest with
        | '?' :: rest => (true, rest)
        | rest => (false, rest)
      repetitions flags (r.repeated ⟨least, most, lazily == flags.swapGreed⟩) fuel rest

def dot (flags : Flags) : Except SyntaxError Regex :=
  if !flags.unicode then .error .matchesPartOfCharacter
  else if flags.dotAll then .ok (set .any)
  else if flags.carriageReturns then .ok (set (.compl (.oneOf ['\r', '\n'])))
  else .ok (set (.compl (.oneOf ['\n'])))

/-- What a caret stands for. -/
def lineStart (flags : Flags) : Anchor :=
  if !flags.multiLine then .textStart
  else if flags.carriageReturns then .brokenLineStart
  else .lineStart

/-- What a dollar sign stands for. -/
def lineEnd (flags : Flags) : Anchor :=
  if !flags.multiLine then .textEnd
  else if flags.carriageReturns then .brokenLineEnd
  else .lineEnd

/-- How alternatives are read up to the end or a closing bracket that is left in place, given the
alternatives before the present one and the parts of the present one, both latest first. -/
abbrev Reader := List Part → List Part → State → Except SyntaxError (Part × State)

/-- Read on after an item, which may be repeated. -/
def afterItem (read : Reader) (branches items : List Part) (p : Part) (st : State) :
    Except SyntaxError (Part × State) := do
  let (p, rest) ← repetitions st.flags p (st.rest.length + 1) st.rest
  read branches (p :: items) { st with rest }

/-- Read a group up to its closing bracket. Flags that are set within it end with it. -/
def groupBody (read : Reader) (number? : Option Nat) (flags : Flags) (st : State) :
    Except SyntaxError (Part × State) := do
  let (p, after) ← read [] [] { st with flags }
  match after.rest with
  | ')' :: rest =>
    let r := match number? with
      | some number => group number p.regex
      | none => seq p.regex empty
    return (⟨r, p.depth + 1⟩, { after with rest, flags := st.flags })
  | _ => .error .unclosedGroup

/-- Read a group that captures, with the next number. -/
def capture (read : Reader) (st : State) : Except SyntaxError (Part × State) :=
  groupBody read (some (st.groups + 1)) st.flags { st with groups := st.groups + 1 }

/-- Read on after an opening bracket: a group, or flags for what follows. -/
def bracketed (read : Reader) (branches items : List Part) (st : State) :
    List Char → Except SyntaxError (Part × State)
  | '?' :: '=' :: _ | '?' :: '!' :: _ | '?' :: '<' :: '=' :: _ | '?' :: '<' :: '!' :: _ =>
    .error .lookAround
  | '?' :: 'P' :: '<' :: rest | '?' :: '<' :: rest => do
    let (_, st) ← groupName { st with rest }
    let (p, st) ← capture read st
    afterItem read branches items p st
  | '?' :: rest => do
    let (flags, unset, rest) ← flagList st.flags [] true false rest
    match unset, rest with
    | true, ')' :: _ => .error .missingRepetitionTarget
    | _, ')' :: rest => read branches items { st with rest, flags }
    | _, rest =>
      let (p, st) ← groupBody read none flags { st with rest := rest.drop 1 }
      afterItem read branches items p st
  | rest => do
    let (p, st) ← capture read { st with rest }
    afterItem read branches items p st

/-- Read one item, bar or bracket, and leave the rest to `read`. -/
def step [Engine] (read : Reader) (branches items : List Part) (st : State) :
    Except SyntaxError (Part × State) :=
  let item (r : Regex) (st : State) := afterItem read branches items ⟨r, 0⟩ st
  match st.rest with
  | [] => .ok (alternation (branch items) branches, st)
  | ')' :: _ => .ok (alternation (branch items) branches, st)
  | '|' :: rest => read (branch items :: branches) [] { st with rest }
  | '(' :: rest => bracketed read branches items st rest
  | '[' :: rest => do
    let (s, rest) ← bracketClass st.flags rest
    afterItem read branches items ⟨set s, 2⟩ { st with rest }
  | '\\' :: rest => do
    let (escaped, rest) ← escape st.flags rest
    let r := match escaped with
      | .char c => set (charSet st.flags c)
      | .charSet s => set s
      | .place a => anchor a
    item r { st with rest }
  | '.' :: rest => do item (← dot st.flags) { st with rest }
  | '^' :: rest => item (anchor (lineStart st.flags)) { st with rest }
  | '$' :: rest => item (anchor (lineEnd st.flags)) { st with rest }
  | c :: rest =>
    if c = '*' ∨ c = '+' ∨ c = '?' ∨ c = '\x7b' then .error .missingRepetitionTarget
    else item (set (charSet st.flags c)) { st with rest }

/-- Read alternatives in at most as many steps as there is fuel. -/
def alternatives [Engine] : (fuel : Nat) → Reader
  | 0, _, _, _ => .error .unclosedGroup
  | fuel + 1, branches, items, st => step (alternatives fuel) branches items st.skip

end Parser

/-- How deep an expression may be nested. -/
def maxDepth : Nat := 250

/-- What has been read, if that is all and neither too deep nor too large. -/
def taken [Engine] (p : Parser.Part) (rest : List Char) : Except SyntaxError Regex :=
  match rest with
  | [] =>
    if maxDepth < p.depth then .error .tooDeep
    else if !Engine.fits p.regex then .error .tooLarge
    else .ok p.regex
  | _ => .error .unopenedGroup

/-- Read an expression, whole. -/
def parse [Engine] (ignoreCase : Bool) (pattern : String) : Except SyntaxError Regex := do
  let chars := pattern.toList
  let (p, st) ← Parser.alternatives (2 * chars.length + 2) [] []
    { rest := chars, flags := { ignoreCase }, groups := 0, names := [] }
  taken p st.rest

end Regex

end SourceSurvey
