import SourceSurvey.Json.Parser
import SourceSurvey.Json.Printer

/-!
Both written forms of a value are the same tokens in different layouts. A layout says what blanks
stand between the tokens.
-/

namespace SourceSurvey.Json

/-- The blanks before an item or closing bracket at some depth, and those behind a colon. -/
structure Layout where
  line : Nat → List Char
  colon : List Char
  line_space : ∀ depth, ∀ c ∈ line depth, Parser.isSpace c = true
  colon_space : ∀ c ∈ colon, Parser.isSpace c = true

namespace Layout

/-- No blanks at all. -/
def compact : Layout where
  line := fun _ => []
  colon := []
  line_space := by simp
  colon_space := by simp

/-- A line for every item, indented by its depth. -/
def pretty : Layout where
  line := newline
  colon := [' ']
  line_space := by
    intro depth c hc
    rcases List.mem_cons.1 hc with rfl | hc
    · rfl
    · rw [List.eq_of_mem_replicate hc]
      rfl
  colon_space := by
    intro c hc
    rw [List.mem_singleton.1 hc]
    rfl

end Layout

mutual

/-- The text of a value in a layout. -/
def chars (l : Layout) (depth : Nat) : Json → List Char
  | arr (j :: rest) =>
    '[' :: l.line (depth + 1) ++ j.chars l (depth + 1) ++ (charsOfItems l depth rest ++
      (l.line depth ++ [']']))
  | obj ((key, j) :: rest) =>
    '\x7b' :: l.line (depth + 1) ++ escapedText key ++ ':' :: l.colon ++ j.chars l (depth + 1) ++
      (charsOfMembers l depth rest ++ (l.line depth ++ ['\x7d']))
  | j => atom j

def charsOfItems (l : Layout) (depth : Nat) : List Json → List Char
  | [] => []
  | j :: rest => ',' :: l.line (depth + 1) ++ j.chars l (depth + 1) ++ charsOfItems l depth rest

def charsOfMembers (l : Layout) (depth : Nat) : List (String × Json) → List Char
  | [] => []
  | (key, j) :: rest =>
    ',' :: l.line (depth + 1) ++ escapedText key ++ ':' :: l.colon ++ j.chars l (depth + 1) ++
      charsOfMembers l depth rest

end

mutual

/-- The compact form is the layout without any blanks. -/
theorem compactChars_eq : ∀ (j : Json) (depth : Nat), j.compactChars = j.chars .compact depth
  | arr (j :: rest), depth => by
    simp [compactChars, chars, Layout.compact, compactChars_eq j (depth + 1),
      compactItems_eq rest depth]
  | obj ((key, j) :: rest), depth => by
    simp [compactChars, chars, Layout.compact, compactChars_eq j (depth + 1),
      compactMembers_eq rest depth]
  | arr [], _ | obj [], _ => rfl
  | null, _ | bool _, _ | int _, _ | float _, _ | str _, _ | broken _, _ => rfl

theorem compactItems_eq : ∀ (items : List Json) (depth : Nat),
    compactItems items = charsOfItems .compact depth items
  | [], _ => rfl
  | j :: rest, depth => by
    simp [compactItems, charsOfItems, Layout.compact, compactChars_eq j (depth + 1),
      compactItems_eq rest depth]

theorem compactMembers_eq : ∀ (members : List (String × Json)) (depth : Nat),
    compactMembers members = charsOfMembers .compact depth members
  | [], _ => rfl
  | (key, j) :: rest, depth => by
    simp [compactMembers, charsOfMembers, Layout.compact, compactChars_eq j (depth + 1),
      compactMembers_eq rest depth]

end

mutual

/-- The pretty form is the layout with a line for each item. -/
theorem prettyChars_eq : ∀ (j : Json) (depth : Nat), j.prettyChars depth = j.chars .pretty depth
  | arr (j :: rest), depth => by
    simp [prettyChars, chars, Layout.pretty, prettyChars_eq j (depth + 1),
      prettyItems_eq rest depth]
  | obj ((key, j) :: rest), depth => by
    simp [prettyChars, chars, Layout.pretty, prettyChars_eq j (depth + 1),
      prettyMembers_eq rest depth]
  | arr [], _ | obj [], _ => rfl
  | null, _ | bool _, _ | int _, _ | float _, _ | str _, _ | broken _, _ => rfl

theorem prettyItems_eq : ∀ (items : List Json) (depth : Nat),
    prettyItems depth items = charsOfItems .pretty depth items
  | [], _ => rfl
  | j :: rest, depth => by
    simp [prettyItems, charsOfItems, Layout.pretty, prettyChars_eq j (depth + 1),
      prettyItems_eq rest depth]

theorem prettyMembers_eq : ∀ (members : List (String × Json)) (depth : Nat),
    prettyMembers depth members = charsOfMembers .pretty depth members
  | [], _ => rfl
  | (key, j) :: rest, depth => by
    simp [prettyMembers, charsOfMembers, Layout.pretty, prettyChars_eq j (depth + 1),
      prettyMembers_eq rest depth]

end

end SourceSurvey.Json
