/-!
Tables of code points. A table is lines of runs separated by blanks: `41-5a` is every code point
from 41 to 5a (hexadecimal), `100-12e/2` every second one. A shift adds a signed distance:
`41-5a+20` sends each of these to the code point 20 further, `~` shifts backwards.
-/

namespace SourceSurvey.Text

/-- The code points `first`, `first + step`, … up to `last`. -/
structure Run where
  first : Nat
  last : Nat
  step : Nat
deriving Repr, DecidableEq

/-- A run whose members all move by the same distance. -/
structure Shift where
  run : Run
  distance : Int
deriving Repr, DecidableEq

def hexDigit? (c : Char) : Option Nat :=
  if '0' ≤ c ∧ c ≤ '9' then some (c.toNat - '0'.toNat)
  else if 'a' ≤ c ∧ c ≤ 'f' then some (c.toNat - 'a'.toNat + 10)
  else if 'A' ≤ c ∧ c ≤ 'F' then some (c.toNat - 'A'.toNat + 10)
  else none

/-- The number that hexadecimal digits stand for, if all of them are digits. -/
def hexNumber? (digits : List Char) : Option Nat :=
  digits.foldl (fun acc c => acc.bind fun n => (hexDigit? c).map (n * 16 + ·)) (some 0)

namespace Run

def contains (r : Run) (n : Nat) : Bool :=
  r.first ≤ n && n ≤ r.last && (n - r.first) % r.step == 0

def mem (table : List Run) (c : Char) : Bool :=
  table.any fun r => r.contains c.toNat

def parse? (text : List Char) : Option Run := do
  let bounds := text.takeWhile (· ≠ '/')
  let step ← match text.dropWhile (· ≠ '/') with
    | _ :: digits => hexNumber? digits
    | [] => some 1
  let first ← hexNumber? (bounds.takeWhile (· ≠ '-'))
  match bounds.dropWhile (· ≠ '-') with
  | _ :: digits => return ⟨first, ← hexNumber? digits, step⟩
  | [] => return ⟨first, first, step⟩

def table (lines : List String) : List Run :=
  (lines.flatMap (·.toList.splitOn ' ')).filterMap parse?

end Run

namespace Shift

def parse? (text : List Char) : Option Shift := do
  let isSign := fun c : Char => c = '+' || c = '~'
  let run ← Run.parse? (text.takeWhile (!isSign ·))
  match text.dropWhile (!isSign ·) with
  | '+' :: digits => return ⟨run, ← hexNumber? digits⟩
  | '~' :: digits => return ⟨run, -(← hexNumber? digits)⟩
  | _ => none

def table (lines : List String) : List Shift :=
  (lines.flatMap (·.toList.splitOn ' ')).filterMap parse?

/-- Where the table sends `c`; characters in no run stay. -/
def apply (table : List Shift) (c : Char) : Char :=
  match table.find? fun s => s.run.contains c.toNat with
  | some s => Char.ofNat (Int.ofNat c.toNat + s.distance).toNat
  | none => c

/-- The characters that the table sends to `c`. -/
def sources (table : List Shift) (c : Char) : List Char :=
  table.filterMap fun s =>
    let n := (Int.ofNat c.toNat - s.distance).toNat
    if s.run.contains n then some (Char.ofNat n) else none

end Shift

end SourceSurvey.Text
