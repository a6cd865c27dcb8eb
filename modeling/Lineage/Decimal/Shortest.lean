import Lineage.Decimal.Double

/-!
# The shortest decimal of a double

Every double is the nearest one to all numbers in some interval around it. Among the decimals in
that interval those with the fewest digits are wanted, and of these the one nearest to the double;
of two that are equally near, the one whose last digit is even (`Double.shortest`).

Decimals with so many digits at a power of ten make a grid, and if any of its points lies in the
interval, so does one of the two neighbours of the double. So it is enough to look at these, for one
digit, two digits and so on; seventeen digits always do.
-/

namespace Lineage.Decimal

/-- A decimal: `digits * 10 ^ scale`. -/
structure Scientific where
  digits : Nat
  /-- The power of ten that they count. -/
  scale : Int
deriving DecidableEq, Repr

/-- The decimal without zeros at its end. -/
def Scientific.stripZeros (digits : Nat) (scale : Int) : Scientific :=
  if digits ≠ 0 ∧ digits % 10 = 0 then stripZeros (digits / 10) (scale + 1) else ⟨digits, scale⟩
termination_by digits
decreasing_by omega

namespace Double

/-! ### The interval of a double

Everything is counted in quarters of the last binary digit of the double, and in powers of ten,
times what makes both whole numbers. -/

/-- So many quarters of the last binary digit, on the scale of a grid. -/
def quartersAt (x : Double) (scale : Int) (quarters : Nat) : Nat :=
  quarters * Nat.pow 2 (x.exponent - 2).toNat * Nat.pow 10 (-scale).toNat

/-- A point of the grid, on the same scale. -/
def pointAt (x : Double) (scale : Int) (digits : Nat) : Nat :=
  digits * Nat.pow 10 scale.toNat * Nat.pow 2 (2 - x.exponent).toNat

def quarters (x : Double) : Nat :=
  4 * x.significand

/-- The quarters between a double and the lower end of its interval. The double below is twice as
near as usual if this one is a power of two. -/
def quartersBelow (x : Double) : Nat :=
  if x.significand = Nat.pow 2 52 ∧ -1074 < x.exponent then 1 else 2

/-- Whether a point of the grid lies in the interval. The ends belong to it if the
significand is even. -/
def covers (x : Double) (scale : Int) (digits : Nat) : Bool :=
  let point := x.pointAt scale digits
  let low := x.quartersAt scale (x.quarters - x.quartersBelow)
  let high := x.quartersAt scale (x.quarters + 2)
  if x.significand % 2 = 0 then low ≤ point && point ≤ high else low < point && point < high

/-- The power of ten that the first digit of a double counts. -/
def magnitude (x : Double) : Int :=
  if x.denominator ≤ x.numerator
    then ((Nat.toDigits 10 (x.numerator / x.denominator)).length : Int) - 1
  else
    let places := (Nat.toDigits 10 (x.denominator / x.numerator)).length
    if x.denominator ≤ x.numerator * Nat.pow 10 (places - 1) then 1 - (places : Int)
    else -(places : Int)

/-- The neighbour of a double on a grid that lies in its interval; of two, the nearer one. -/
def onGrid? (x : Double) (scale : Int) : Option Nat :=
  let value := x.quartersAt scale x.quarters
  let step := x.pointAt scale 1
  let below := value / step
  let excess := 2 * (value % step)
  -- Of two neighbours that are equally near, the even one comes first.
  let nearer := if excess < step ∨ (excess = step ∧ below % 2 = 0) then below else below + 1
  let farther := if nearer = below then below + 1 else below
  if x.covers scale nearer then some nearer else if x.covers scale farther then some farther
  else none

/-- The scale of the grid of decimals with so many digits. -/
def gridScale (x : Double) (count : Nat) : Int :=
  x.magnitude + 1 - count

/-- The most digits that a double needs. -/
def digitLimit : Nat := 17

/-- The shortest decimal that the double is nearest to. -/
def shortest (x : Double) : Scientific :=
  if x.significand = 0 then ⟨0, 0⟩
  else
    match (List.range' 1 digitLimit).findSome? fun count =>
      (x.onGrid? (x.gridScale count)).map fun digits => (digits, x.gridScale count) with
    | some (digits, scale) => Scientific.stripZeros digits scale
    | none => ⟨x.significand, 0⟩

end Double

end Lineage.Decimal
