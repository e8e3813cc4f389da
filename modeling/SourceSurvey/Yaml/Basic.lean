/-!
Documents made of scalars, sequences and mappings, where indentation tells what belongs together.
-/

namespace SourceSurvey

inductive Yaml where
  /-- A text; `plain` if it has no quotes around it, so that it may stand for something else. -/
  | scalar (text : String) (plain : Bool)
  | sequence (items : List Yaml)
  | mapping (entries : List (Yaml × Yaml))

namespace Yaml

/-- What is left out is an empty plain scalar. -/
def nothing : Yaml := scalar "" true

end Yaml

end SourceSurvey
