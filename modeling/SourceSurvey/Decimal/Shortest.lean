/-!
The shortest decimal that reads back as a given binary floating-point number, and its written
forms. The numbers that round to `m · 2 ^ q` form an interval around it; of the grids of decimals
with 1, 2, … digits the first that meets the interval next to the number gives the digits.
-/

namespace SourceSurvey.Decimal

/-- A positive number `mantissa · 2 ^ exponent`, and whether the gap below it is half as wide as
the one above. -/
structure Binary where
  mantissa : Nat
  exponent : Int
  narrowBelow : Bool
deriving Repr, DecidableEq

/-- The finite non-zero number with these bits, its sign left aside. -/
def Binary.ofBits (bits : UInt64) : Binary :=
  let fraction := bits.toNat % Nat.pow 2 52
  let biased := bits.toNat / Nat.pow 2 52 % Nat.pow 2 11
  if biased = 0 then ⟨fraction, -1074, false⟩
  else ⟨Nat.pow 2 52 + fraction, Int.ofNat biased - 1075, fraction = 0 && biased > 1⟩

/-- Digits and the place of the point: `0.d₁d₂… · 10 ^ point`. -/
structure Digits where
  digits : List Char
  point : Int
deriving Repr, DecidableEq

/-- `b ^ e` as a fraction. -/
def power (b : Nat) (e : Int) : Nat × Nat :=
  if e < 0 then (1, Nat.pow b e.natAbs) else (Nat.pow b e.natAbs, 1)

/-- The number of decimal digits before the point of `num / den`, or minus the number of zeros
after it: the least `e` with `num / den < 10 ^ e`, looked for upwards from `e`. -/
def pointFrom (num den : Nat) : (fuel : Nat) → Int → Int
  | 0, e => e
  | fuel + 1, e =>
    let (p, q) := power 10 e
    if num * q < den * p then e else pointFrom num den fuel (e + 1)

/-- The decimal next to the number on the grid with `size` digits that lies in its interval. -/
def onGrid? (b : Binary) (point : Int) (size : Nat) : Option Nat :=
  let (p, q) := power 2 (b.exponent - 2)
  let (gp, gq) := power 10 (point - size)
  -- all in units of `10 ^ (point - size)`: value, lower end and upper end over one denominator
  let den := q * gp
  let value := 4 * b.mantissa * p * gq
  let lower := (4 * b.mantissa - (if b.narrowBelow then 1 else 2)) * p * gq
  let upper := (4 * b.mantissa + 2) * p * gq
  let inside (n : Nat) : Bool :=
    if b.mantissa % 2 = 0 then lower ≤ n * den && n * den ≤ upper
    else lower < n * den && n * den < upper
  let below := value / den
  let above := below + 1
  match inside below, inside above with
  | true, true =>
    let toBelow := value - below * den
    let toAbove := above * den - value
    some (if toBelow < toAbove ∨ (toBelow = toAbove ∧ below % 2 = 0) then below else above)
  | true, false => some below
  | false, true => some above
  | false, false => none

def shortestFrom (b : Binary) (point : Int) : (fuel : Nat) → (size : Nat) → Nat × Nat
  | 0, size => ((onGrid? b point size).getD 0, size)
  | fuel + 1, size =>
    match onGrid? b point size with
    | some n => (n, size)
    | none => shortestFrom b point fuel (size + 1)

/-- Zeros at the end of a numeral do not count. -/
def dropZeros (digits : List Char) : List Char := (digits.reverse.dropWhile (· = '0')).reverse

/-- The shortest digits of a positive number; seventeen always suffice. -/
def shortest (b : Binary) : Digits :=
  let (p, q) := power 2 b.exponent
  let point := pointFrom (b.mantissa * p) q 700 (-330)
  let (n, size) := shortestFrom b point 17 1
  let digits := Nat.toDigits 10 n
  ⟨dropZeros digits, point + (Int.ofNat digits.length - Int.ofNat size)⟩

/-- How numbers are written: positionally while the exponent of the first digit is within bounds,
else with an exponent. -/
structure Style where
  leastExponent : Option Int
  greatestExponent : Option Int
  notANumber : Bool → String
  infinite : String

/-- Digits around a point, at least one on each side. -/
def positional (d : Digits) : String :=
  let whole := if d.point ≤ 0 then ['0']
    else d.digits.take d.point.toNat ++ List.replicate (d.point.toNat - d.digits.length) '0'
  let part := if d.point ≤ 0 then List.replicate (-d.point).toNat '0' ++ d.digits
    else d.digits.drop d.point.toNat
  String.ofList (whole ++ '.' :: (if part.isEmpty then ['0'] else part))

/-- One digit before the point, and a signed exponent. -/
def scientific (d : Digits) : String :=
  let exponent := d.point - 1
  let part := d.digits.drop 1
  String.ofList (d.digits.take 1 ++ (if part.isEmpty then [] else '.' :: part)) ++
    (if exponent < 0 then "e-" else "e+") ++ toString exponent.natAbs

/-- A floating-point number in the given style. -/
def Style.text (style : Style) (x : Float) : String :=
  let negative := x.toBits.toNat ≥ Nat.pow 2 63
  let sign := if negative then "-" else ""
  if x.isNaN then style.notANumber negative
  else if x.isInf then sign ++ style.infinite
  else if x == 0 then sign ++ "0.0"
  else
    let d := shortest (Binary.ofBits x.toBits)
    let exponent := d.point - 1
    sign ++ if style.leastExponent.all (· ≤ exponent) ∧ style.greatestExponent.all (exponent ≤ ·)
      then positional d else scientific d

end SourceSurvey.Decimal
