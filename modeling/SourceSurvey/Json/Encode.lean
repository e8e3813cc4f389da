import SourceSurvey.Json.Basic

namespace SourceSurvey.Json

def ofStrings (items : List String) : Json := .arr (items.map .str)

def ofNat (n : Nat) : Json := .int (Int.ofNat n)

def ofDictionary {α : Type} (value : α → Json) (d : Dictionary α) : Json :=
  .obj (d.entries.map fun (key, a) => (key, value a))

def ofNames (names : NameSet) : Json := ofStrings names.keys

end SourceSurvey.Json
