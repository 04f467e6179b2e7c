/-!
# Double precision numbers

A finite double is a sign and `significand · 2 ^ exponent`.  All arithmetic is exact on natural
numbers and rounds once, to the nearest double, a tie going to the even significand.

* `Binary64.ofRatio` — the double nearest to a quotient, if it does not overflow.
* `Binary64.mul`, `Binary64.div` — rounded product and quotient.
* `Binary64.scaleByTen` — a double times a power of ten, the power itself rounded first.
-/

namespace ProjectLayout

/-- The number `2 ^ n`. -/
def twoPow (n : Nat) : Nat := Nat.pow 2 n

/-- The number `10 ^ n`. -/
def tenPow (n : Nat) : Nat := Nat.pow 10 n

/-- A finite double.  Zero has significand `0`; any other value has a significand of 53 bits, or
of fewer bits at the least exponent. -/
structure Binary64 where
  negative : Bool
  significand : Nat
  exponent : Int
  deriving DecidableEq, Repr, Inhabited

namespace Binary64

/-- Exponent of the least positive double. -/
def minExponent : Int := -1074

/-- Exponent of the greatest doubles. -/
def maxExponent : Int := 971

def zero : Binary64 := ⟨false, 0, minExponent⟩

def isZero (x : Binary64) : Bool := x.significand == 0

/-- The number with the other sign; zero has two. -/
def neg (x : Binary64) : Binary64 := { x with negative := !x.negative }

/-! ## Rounding -/

/-- The quotient rounded to the nearest number, a tie to the even one. -/
def roundDiv (num den : Nat) : Nat :=
  let quotient := num / den
  let twice := 2 * (num % den)
  if twice < den then quotient
  else if den < twice then quotient + 1
  else quotient + quotient % 2

/-- The significand of `num / den` in units of `2 ^ exponent`. -/
def significandAt (num den : Nat) (exponent : Int) : Nat :=
  roundDiv (num * twoPow (-exponent).toNat) (den * twoPow exponent.toNat)

/-- The exponent at which a positive quotient has an integral part of 53 bits, or the least one. -/
def exponentOf (num den : Nat) : Int :=
  let guess : Int := (num.log2 : Int) - den.log2 - 52
  let whole := (num * twoPow (-guess).toNat) / (den * twoPow guess.toNat)
  max minExponent (if whole < twoPow 52 then guess - 1 else guess)

/-- The double nearest to a quotient; `none` when it is too large. -/
def ofRatio (negative : Bool) (num den : Nat) : Option Binary64 :=
  if num = 0 then some { zero with negative }
  else
    let exponent := exponentOf num den
    let significand := significandAt num den exponent
    let (significand, exponent) :=
      if significand = twoPow 53 then (twoPow 52, exponent + 1) else (significand, exponent)
    if maxExponent < exponent then none
    else if significand = 0 then some { zero with negative }
    else some ⟨negative, significand, exponent⟩

/-- The double nearest to `significand · 2 ^ exponent`. -/
def ofScaled (negative : Bool) (num den : Nat) (exponent : Int) : Option Binary64 :=
  ofRatio negative (num * twoPow exponent.toNat) (den * twoPow (-exponent).toNat)

/-- A natural number as a double; every number below `2 ^ 64` has one. -/
def ofNat (n : Nat) : Binary64 := (ofRatio false n 1).getD zero

/-! ## Products and quotients -/

/-- The rounded product. -/
def mul (x y : Binary64) : Option Binary64 :=
  ofScaled (x.negative != y.negative) (x.significand * y.significand) 1 (x.exponent + y.exponent)

/-- The quotient by a double other than zero. -/
def div (x y : Binary64) : Option Binary64 :=
  ofScaled (x.negative != y.negative) x.significand y.significand (x.exponent - y.exponent)

/-- The greatest power of ten that is a double. -/
def maxPowerOfTen : Nat := 308

/-- `x / 10 ^ k`, dividing by the greatest power of ten as long as `k` exceeds it. -/
def divPowerOfTen (x : Binary64) (k : Nat) : Option Binary64 :=
  if k ≤ maxPowerOfTen then x.div (ofNat (tenPow k))
  else if x.isZero then some x
  else
    match x.div (ofNat (tenPow maxPowerOfTen)) with
    | some y => y.divPowerOfTen (k - maxPowerOfTen)
    | none => none
termination_by k
decreasing_by simp only [maxPowerOfTen] at *; omega

/-- `x · 10 ^ k`; `none` when it is too large. -/
def scaleByTen (x : Binary64) (k : Int) : Option Binary64 :=
  if k < 0 then x.divPowerOfTen k.natAbs
  else if k.toNat ≤ maxPowerOfTen then x.mul (ofNat (tenPow k.toNat))
  else if x.isZero then some x
  else none

end Binary64

end ProjectLayout
