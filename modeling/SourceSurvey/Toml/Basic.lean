import SourceSurvey.Decimal.Shortest

/-!
Values of configuration documents made of tables.
-/

namespace SourceSurvey

inductive Toml where
  | str (s : String)
  | int (n : Int)
  | float (x : Float)
  | bool (b : Bool)
  /-- A date, a time or both, in normal form. -/
  | moment (text : String)
  | arr (items : List Toml)
  /-- A table with its entries sorted by key. -/
  | table (entries : List (String × Toml))

namespace Toml

/-- The entry of a table with this key. -/
def get? (t : Toml) (key : String) : Option Toml :=
  match t with
  | table entries => entries.lookup key
  | _ => none

def entries? : Toml → Option (List (String × Toml))
  | table entries => some entries
  | _ => none

def str? : Toml → Option String
  | str s => some s
  | _ => none

end Toml

end SourceSurvey
