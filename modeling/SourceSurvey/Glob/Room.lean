import SourceSurvey.Glob.Set

/-!
How much room patterns take as an automaton. The measure is an estimate, as it is for other
expressions.
-/

namespace SourceSurvey.Glob

mutual

/-- The room that a token's expression takes. -/
def Token.room : Token → Nat
  | .literal c => 32 * c.utf8Size
  | .anyByte => 72
  | .anyBytes => 112
  | .leadingDirectories => 320
  | .allBelow => 144
  | .innerDirectories => 280
  | .oneOf _ ranges => 64 + 8 * total (ranges.map rangeParts)
  | .anyOf branches => if branchesVoid branches then 0 else 64 + branchesRoom branches

def branchesRoom : List (List Token) → Nat
  | [] => 0
  | branch :: branches =>
    (if allVoid branch then 0 else 4 + tokensRoom branch) + branchesRoom branches

def tokensRoom : List Token → Nat
  | [] => 0
  | token :: tokens => token.room + tokensRoom tokens

end

def room (glob : Glob) : Nat := tokensRoom glob.tokens

instance : Engine where
  fit globs := total (globs.map room) ≤ Regex.maxRoom

end SourceSurvey.Glob
