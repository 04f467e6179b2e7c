import ProjectLayout.Number.Binary64

/-!
# Shortest decimal text

The shortest decimal that rounds to a double, the nearest such decimal if several are as short.

* `Decimal` — an unsigned decimal `digits · 10 ^ exponent`.
* `Binary64.shortest` — the shortest decimal of a double.
* `Decimal.text` — positional text for leading exponents from -5 to 15, with `.0` on whole
  numbers; otherwise one digit before the point and a signed exponent.
* `Binary64.text` — the text of a double.
-/

namespace ProjectLayout

/-- The number `digits · 10 ^ exponent`. -/
structure Decimal where
  digits : Nat
  exponent : Int
  deriving DecidableEq, Repr, Inhabited

namespace Decimal

/-- How the decimal compares with `units · 2 ^ binary`; both sides are made whole first. -/
def compareBinary (d : Decimal) (units : Nat) (binary : Int) : Ordering :=
  compare (d.digits * tenPow d.exponent.toNat * twoPow (-binary).toNat)
    (units * twoPow binary.toNat * tenPow (-d.exponent).toNat)

/-- The same number without trailing zero digits; `fuel` bounds how many are looked at. -/
def stripZeros : Nat → Decimal → Decimal
  | 0, d => d
  | fuel + 1, d =>
    if d.digits ≠ 0 ∧ d.digits % 10 = 0 then stripZeros fuel ⟨d.digits / 10, d.exponent + 1⟩ else d

end Decimal

namespace Binary64

/-- The reals that round to a double lie between these numbers of quarter units. -/
def roundingBounds (x : Binary64) : Nat × Nat :=
  let below := if x.significand = twoPow 52 ∧ minExponent < x.exponent then 1 else 2
  (4 * x.significand - below, 4 * x.significand + 2)

/-- Whether a decimal rounds to the magnitude of `x`; the ends belong to even significands. -/
def roundsTo (x : Binary64) (d : Decimal) : Bool :=
  let (low, high) := x.roundingBounds
  let ends := x.significand % 2 == 0
  let atLow := d.compareBinary low (x.exponent - 2)
  let atHigh := d.compareBinary high (x.exponent - 2)
  (atLow == .gt || (ends && atLow == .eq)) && (atHigh == .lt || (ends && atHigh == .eq))

/-- The magnitude as a quotient of natural numbers. -/
def ratio (x : Binary64) : Nat × Nat :=
  (x.significand * twoPow x.exponent.toNat, twoPow (-x.exponent).toNat)

/-- The exponent of the leading decimal digit of a positive magnitude. -/
def leadingExponent (x : Binary64) : Int :=
  let (num, den) := x.ratio
  if den ≤ num then ((Nat.toDigits 10 (num / den)).length : Int) - 1
  else
    let places := (Nat.toDigits 10 (den / num)).length
    if den ≤ num * tenPow (places - 1) then 1 - (places : Int) else -(places : Int)

/-- The best decimal of `count` digits that rounds to `x`, if there is one. -/
def decimalOf? (x : Binary64) (count : Nat) : Option Decimal :=
  let exponent := x.leadingExponent - count + 1
  let (num, den) := x.ratio
  let scaledNum := num * tenPow (-exponent).toNat
  let scaledDen := den * tenPow exponent.toNat
  let floor := scaledNum / scaledDen
  let twice := 2 * (scaledNum % scaledDen)
  let down : Decimal := ⟨floor, exponent⟩
  let up : Decimal := ⟨floor + 1, exponent⟩
  let downFirst := twice < scaledDen || (twice == scaledDen && floor % 2 == 0)
  let (first, second) := if downFirst then (down, up) else (up, down)
  if x.roundsTo first then some first else if x.roundsTo second then some second else none

/-- The shortest decimal that rounds to the magnitude of `x`. -/
def shortest (x : Binary64) : Decimal :=
  match ((List.range 17).map (· + 1)).findSome? x.decimalOf? with
  | some d => d.stripZeros 17
  | none => ⟨0, 0⟩

end Binary64

/-! ## Text -/

/-- Least leading exponent written positionally. -/
def Decimal.leastPositional : Int := -5

/-- Greatest leading exponent written positionally. -/
def Decimal.greatestPositional : Int := 15

/-- Positional where the leading exponent allows it, otherwise with an exponent. -/
def Decimal.text (d : Decimal) : List Char :=
  let digits := Nat.toDigits 10 d.digits
  let leading := d.exponent + digits.length - 1
  if leastPositional ≤ leading ∧ leading ≤ greatestPositional then
    if 0 ≤ d.exponent then digits ++ List.replicate d.exponent.toNat '0' ++ ['.', '0']
    else if 0 ≤ leading then
      digits.take (leading.toNat + 1) ++ '.' :: digits.drop (leading.toNat + 1)
    else ['0', '.'] ++ List.replicate (leading.natAbs - 1) '0' ++ digits
  else
    let mantissa := match digits with
      | [digit] => [digit]
      | digit :: more => digit :: '.' :: more
      | [] => []
    mantissa ++ ['e', if leading < 0 then '-' else '+'] ++ Nat.toDigits 10 leading.natAbs

namespace Binary64

/-- The sign, which zero has too, and the shortest decimal. -/
def text (x : Binary64) : List Char :=
  let sign := if x.negative then ['-'] else []
  sign ++ if x.isZero then ['0', '.', '0'] else x.shortest.text

end Binary64

end ProjectLayout
