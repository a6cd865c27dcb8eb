/-!
# Doubles, exactly

The non-negative finite doubles as natural numbers: a double is a significand below `2 ^ 53` times a
power of two not below `2 ^ (-1074)`. A ratio of natural numbers is rounded to the nearest double, a
ratio half way between two of them to the one with the even significand (`ofRatio?`); ratios too
large for a finite double have none.

Everything here is exact arithmetic on natural numbers.
-/

namespace Lineage.Decimal

/-- A non-negative finite double: `significand * 2 ^ exponent`. -/
structure Double where
  /-- The digits of the number in base two. -/
  significand : Nat
  exponent : Int
deriving DecidableEq, Repr

namespace Double

def zero : Double := ⟨0, -1074⟩

/-- The numerator of a double as a ratio. -/
def numerator (x : Double) : Nat :=
  x.significand * Nat.pow 2 x.exponent.toNat

/-- The denominator of a double as a ratio. -/
def denominator (x : Double) : Nat :=
  Nat.pow 2 (-x.exponent).toNat

/-- A quotient rounded to the nearest natural number, a half to the even one. -/
def roundedQuotient (num den : Nat) : Nat :=
  let quotient := num / den
  let excess := 2 * (num % den)
  if excess < den ∨ (excess = den ∧ quotient % 2 = 0) then quotient else quotient + 1

/-- A quotient in units of a power of two, rounded. -/
def roundedUnits (num den : Nat) (exponent : Int) : Nat :=
  roundedQuotient (num * Nat.pow 2 (-exponent).toNat) (den * Nat.pow 2 exponent.toNat)

/-- The power of two in whose units a ratio has 53 binary digits, or the smallest one there is. -/
def unitOf (num den : Nat) : Int :=
  let guess : Int := (num.log2 : Int) - den.log2 - 52
  let small := num * Nat.pow 2 (-guess).toNat < Nat.pow 2 52 * (den * Nat.pow 2 guess.toNat)
  max (-1074) (if small then guess - 1 else guess)

/-- The double nearest to a ratio, if the ratio is not too large for one. -/
def ofRatio? (num den : Nat) : Option Double :=
  if num = 0 then some zero
  else
    let exponent := unitOf num den
    let units := roundedUnits num den exponent
    -- Rounding up may carry into a digit more; then the significand is a power of two, and halving
    -- it is exact.
    let x : Double :=
      if units = Nat.pow 2 53 then ⟨Nat.pow 2 52, exponent + 1⟩ else ⟨units, exponent⟩
    if 971 < x.exponent then none else some x

/-- The double nearest to a natural number. -/
def ofNat? (n : Nat) : Option Double :=
  ofRatio? n 1

/-- The product of two doubles, rounded. -/
def mul? (x y : Double) : Option Double :=
  ofRatio? (x.numerator * y.numerator) (x.denominator * y.denominator)

/-- The quotient of two doubles, rounded. -/
def div? (x y : Double) : Option Double :=
  ofRatio? (x.numerator * y.denominator) (x.denominator * y.numerator)

end Double

end Lineage.Decimal
