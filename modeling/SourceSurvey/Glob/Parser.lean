import SourceSurvey.Glob.Basic

namespace SourceSurvey.Glob

namespace Parser

/-- The class being read: its ranges, latest first, and whether a minus sign waits for the end of
a range. -/
structure ClassState where
  ranges : List (Char × Char)
  inRange : Bool

/-- Add a character to a class, as the end of a range if one is open. -/
def ClassState.add (st : ClassState) (c : Char) : Except Cause ClassState :=
  match st.inRange, st.ranges with
  | true, (first, _) :: ranges =>
    if c < first then .error (.invalidRange first c) else .ok ⟨(first, c) :: ranges, false⟩
  | _, ranges => .ok ⟨(c, c) :: ranges, false⟩

/-- Read a class up to its closing bracket. A bracket or minus sign at its very beginning stands
for itself, and so does a minus sign at its end. -/
def classBody (first : Bool) (st : ClassState) : List Char →
    Except Cause (List (Char × Char) × List Char)
  | [] => .error .unclosedClass
  | c :: rest =>
    if c = ']' ∧ !first then
      .ok ((if st.inRange then ('-', '-') :: st.ranges else st.ranges).reverse, rest)
    else if c = '-' ∧ !first ∧ !st.inRange then classBody false { st with inRange := true } rest
    else do classBody false (← st.add c) rest

/-- An open group: the tokens before it, the branches that are complete, latest first. -/
structure Group where
  before : List Token
  branches : List (List Token)

/-- What stars become: `tokens` is what stands before them in their branch, latest first, `before`
the character before them. Gives the tokens and what is left of the text. -/
def stars (inGroup : Bool) (tokens : List Token) (before : Option Char) (rest : List Char) :
    List Token × List Char :=
  match rest with
  | '*' :: after =>
    let plain := (Token.anyBytes :: Token.anyBytes :: tokens, after)
    match tokens with
    | [] =>
      match after with
      | [] => ([.leadingDirectories], [])
      | '/' :: after => ([.leadingDirectories], after)
      | _ => plain
    | last :: earlier =>
      if before ≠ some '/' ∧ !(inGroup && (before = some ',' || before = some '\x7b')) then plain
      else
        let replace (token : Token) : List Token := match last with
          | .leadingDirectories => .leadingDirectories :: earlier
          | .allBelow => .allBelow :: earlier
          | _ => token :: earlier
        match after with
        | [] => (replace .allBelow, [])
        | c :: after' =>
          if inGroup ∧ (c = ',' ∨ c = '\x7d') then (replace .allBelow, after)
          else if c = '/' then (replace .innerDirectories, after')
          else plain
  | _ => (.anyBytes :: tokens, rest)

/-- Read a pattern. `groups` are the open groups, innermost first, `tokens` the present branch,
latest first, `before` the character before the rest. Each step takes at least one character. -/
def pattern (groups : List Group) (tokens : List Token) (before : Option Char) :
    (fuel : Nat) → List Char → Except Cause (List Token)
  | _, [] => if groups.isEmpty then .ok tokens.reverse else .error .unclosedBraces
  | 0, _ => .error .unclosedBraces
  | fuel + 1, c :: rest =>
    match c with
    | '?' => pattern groups (.anyByte :: tokens) (some c) fuel rest
    | '*' =>
      let (tokens, after) := stars (!groups.isEmpty) tokens before rest
      let read := rest.take (rest.length - after.length)
      pattern groups tokens (read.getLast?.or (some c)) fuel after
    | '[' => do
      let (negated, body) := match rest with
        | '!' :: body | '^' :: body => (true, body)
        | _ => (false, rest)
      let (ranges, after) ← classBody true ⟨[], false⟩ body
      pattern groups (.oneOf negated ranges :: tokens) (some ']') fuel after
    | '\x7b' => pattern (⟨tokens, []⟩ :: groups) [] (some c) fuel rest
    | '\x7d' =>
      match groups with
      | [] => .error .unopenedBraces
      | group :: groups =>
        let branches := (tokens.reverse :: group.branches).reverse
        pattern groups (.anyOf branches :: group.before) (some c) fuel rest
    | ',' =>
      match groups with
      | [] => pattern groups (.literal c :: tokens) (some c) fuel rest
      | group :: groups =>
        pattern ({ group with branches := tokens.reverse :: group.branches } :: groups) []
          (some c) fuel rest
    | '\\' =>
      match rest with
      | [] => .error .danglingEscape
      | escaped :: rest => pattern groups (.literal escaped :: tokens) (some escaped) fuel rest
    | c => pattern groups (.literal c :: tokens) (some c) fuel rest

end Parser

/-- Read a pattern, whole. -/
def parse (text : String) : Except SyntaxError Glob :=
  match Parser.pattern [] [] none text.length text.toList with
  | .ok tokens => .ok ⟨tokens⟩
  | .error cause => .error ⟨text, cause⟩

end SourceSurvey.Glob
