import SourceSurvey.Regex.Basic

/-!
Matching at a place of a text by trying alternatives in order of preference: the first way through
the expression that succeeds is the match.
-/

namespace SourceSurvey

/-- A place in a text: the character before it, its distance from the start, what follows. -/
structure Cursor where
  before : Option Char
  index : Nat
  rest : List Char

namespace Cursor

def start (text : List Char) : Cursor := ⟨none, 0, text⟩

def next? (cur : Cursor) : Option (Char × Cursor) :=
  match cur.rest with
  | [] => none
  | c :: rest => some (c, ⟨some c, cur.index + 1, rest⟩)

/-- The place after the next character, which the end of the text does not have. -/
def advance? (cur : Cursor) : Option Cursor := cur.next?.map (·.2)

/-- The place at distance `index` from the start, if that lies ahead. -/
def skipTo (index : Nat) (cur : Cursor) : Cursor :=
  let skipped := cur.rest.take (index - cur.index)
  ⟨skipped.getLast?.or cur.before, cur.index + skipped.length, cur.rest.drop (index - cur.index)⟩

end Cursor

/-- What capture groups matched, the latest first: group number, start and end. -/
abbrev Captures := List (Nat × Nat × Nat)

/-- Where in an expression there is a choice: the numbers of the parts that lead to it, the innermost
first. -/
abbrev Spot := List Nat

/-- What is carried along a way through an expression. -/
structure Thread where
  captures : Captures
  /-- The choices met since a character was read. They are kept if the expression has a loop in which
  nothing need be read: no choice is met twice at one place then. -/
  trail : Option (List Spot)

namespace Thread

/-- Meet a choice, unless it has been met at this place before. -/
def meet? (t : Thread) (spot : Spot) : Option Thread :=
  match t.trail with
  | none => some t
  | some trail => if trail.contains spot then none else some { t with trail := some (spot :: trail) }

/-- Read a character, behind which the choices met are these. -/
def read (t : Thread) (met : List Spot) : Thread := { t with trail := t.trail.map fun _ => met }

end Thread

/-- The choice whether to read one more character, if the first one need not be read. -/
def Bounds.startsWithChoice (bounds : Bounds) : Bool := bounds.least == 0 && bounds.most != some 0

/-- How many repetitions may follow those that must. Without a limit there is room for a first one that
reads nothing, one for every character left, and one that comes back to a choice and is refused. -/
def Bounds.spare (bounds : Bounds) (left : Nat) : Nat :=
  match bounds.most with
  | some most => most - bounds.least
  | none => left + 3

/-- The copy of a repeated expression that is matched after so many others. Without a limit, the last
one that must be matched is gone through again and again. -/
def Bounds.copy (bounds : Bounds) (count : Nat) : Nat :=
  if bounds.most.isNone then min count (bounds.least - 1) else count

/-- Where it is chosen whether another copy follows so many others. A loop comes back to one choice,
but if its body can be empty, another one decides whether to enter it. -/
def Bounds.choice (bounds : Bounds) (canBeEmpty : Bool) (count : Nat) : Nat :=
  if bounds.most.isNone then if bounds.least = 0 ∧ canBeEmpty then min count 1 else 0 else count

namespace Regex

/-- Try `k` at every place of the list in turn. -/
def firstSuccess {α : Type} (k : Cursor → Option α) : List Cursor → Option α
  | [] => none
  | cur :: rest =>
    match k cur with
    | some a => some a
    | none => firstSuccess k rest

/-- The places reached by reading at most `limit` characters of the set, nearest first, each with
the number of characters read, starting from `read`. -/
def spanPlaces (s : CharSet) (limit : Option Nat) : Option Char → Nat → Nat → List Char →
    List (Nat × Cursor)
  | before, index, read, [] => [(read, ⟨before, index, []⟩)]
  | before, index, read, c :: rest =>
    (read, ⟨before, index, c :: rest⟩) ::
      if limit.all (read < ·) && s.contains c
      then spanPlaces s limit (some c) (index + 1) (read + 1) rest
      else []

/-- The places where a span may end, the preferred first. -/
def spanEnds (s : CharSet) (bounds : Bounds) (cur : Cursor) : List Cursor :=
  let places := (spanPlaces s bounds.most cur.before cur.index 0 cur.rest).filterMap
    fun (read, place) => if bounds.least ≤ read then some place else none
  if bounds.greedy then places.reverse else places

/-- Match copies of an expression by `step` while they may follow, and go on with `k`. A choice is met
before each of them; `count` copies have been matched before. -/
def extend {α : Type} (step : Nat → Cursor → Thread → (Cursor → Thread → Option α) → Option α)
    (spot : Nat → Spot) (greedy : Bool) (k : Cursor → Thread → Option α) :
    (spare count : Nat) → Cursor → Thread → Option α
  | 0, _, cur, t => k cur t
  | spare + 1, count, cur, t =>
    match t.meet? (spot count) with
    | none => none
    | some t =>
      let more := fun (_ : Unit) => step count cur t fun cur' t' =>
        extend step spot greedy k spare (count + 1) cur' t'
      if greedy then (more ()).orElse fun _ => k cur t
      else (k cur t).orElse more

/-- Match the copies of an expression that must be matched, and then those that may. -/
def iterate {α : Type} (step : Nat → Cursor → Thread → (Cursor → Thread → Option α) → Option α)
    (spot : Nat → Spot) (greedy : Bool) (k : Cursor → Thread → Option α) (spare : Nat) :
    (must count : Nat) → Cursor → Thread → Option α
  | 0, count, cur, t => extend step spot greedy k spare count cur t
  | must + 1, count, cur, t => step count cur t fun cur' t' =>
      iterate step spot greedy k spare must (count + 1) cur' t'

/-- The first success of `k` over the ways to match from `cur`, in order of preference. The choices in
the expression are found at `spot` and below. -/
def run {α : Type} : Regex → Spot → Cursor → Thread → (Cursor → Thread → Option α) → Option α
  | empty, _, cur, t, k => k cur t
  | set s, _, cur, t, k =>
    match cur.rest with
    | [] => none
    | c :: rest => if s.contains c then k ⟨some c, cur.index + 1, rest⟩ (t.read []) else none
  | anchor a, _, cur, t, k => if a.holds cur.before cur.rest.head? then k cur t else none
  | seq r s, spot, cur, t, k =>
    run r (0 :: spot) cur t fun cur' t' => run s (1 :: spot) cur' t' k
  | alt r s, spot, cur, t, k =>
    match t.meet? spot with
    | none => none
    | some t =>
      match run r (0 :: spot) cur t k with
      | some a => some a
      | none => run s (1 :: spot) cur t k
  | span s bounds, spot, cur, t, k =>
    match if bounds.startsWithChoice then t.meet? spot else some t with
    | none => none
    | some t =>
      let met := if bounds.startsWithChoice && bounds.most.isNone then [spot] else []
      firstSuccess (fun place => k place (if place.index = cur.index then t else t.read met))
        (spanEnds s bounds cur)
  | «repeat» r bounds, spot, cur, t, k =>
    let bounds := if r.canRead then bounds else bounds.once
    iterate (fun count cur' t' k' => run r ((2 * bounds.copy count) :: spot) cur' t' k')
      (fun count => (2 * bounds.choice r.canBeEmpty count + 1) :: spot) bounds.greedy k
      (bounds.spare cur.rest.length) bounds.least 0 cur t
  | group number r, spot, cur, t, k =>
    run r (0 :: spot) cur t fun cur' t' =>
      k cur' { t' with captures := (number, cur.index, cur'.index) :: t'.captures }

/-- A match: where it starts and ends, and what its groups captured. -/
structure Match where
  start : Nat
  stop : Nat
  captures : Captures

/-- What a group captured: its last iteration counts. -/
def Match.group? (m : Match) (number : Nat) (text : List Char) : Option (List Char) :=
  (m.captures.find? (·.1 = number)).map fun (_, start, stop) => (text.drop start).take (stop - start)

/-- What a way through the expression starts with. -/
def thread (r : Regex) : Thread := ⟨[], if r.hasEmptyLoop then some [] else none⟩

/-- The match at this very place that is found by trying alternatives. -/
def firstMatch? (r : Regex) (cur : Cursor) : Option Match :=
  run r [] cur r.thread fun cur' t => some ⟨cur.index, cur'.index, t.captures⟩

end Regex

end SourceSurvey
