import Lineage.Catalog
import Lineage.Decimal.Shortest
import Lineage.Json.Value

/-!
# Canonical values

A value in the form that depends on nothing but what it is worth: the members of an object stand in
the order of their keys, of a repeated key only the last value stays, and a number has one spelling.
An integer that fits 64 bits is written as such. All other numbers are doubles, written with the
fewest digits: positionally, with one digit after the point at least, if the point falls among the
first sixteen digits or less than five zeros behind itself, else with an exponent.
-/

namespace Lineage.Json

open Lineage.Decimal

namespace Number

/-- The largest first digit position of a double that is written positionally. -/
def positionalLimit : Int := 16

/-- The most zeros plus one that may stand between the point and the first digit. -/
def leadingZeroLimit : Int := 5

def exponentOf (exponent : Int) : Exponent :=
  ⟨'e', if exponent < 0 then some '-' else none, Nat.toDigits 10 exponent.natAbs⟩

def ofDouble (negative : Bool) (x : Double) : Number :=
  let decimal := x.shortest
  let digits := Nat.toDigits 10 decimal.digits
  let point := decimal.scale + digits.length
  if 0 ≤ decimal.scale ∧ point ≤ positionalLimit then
    ⟨negative, digits ++ List.replicate decimal.scale.toNat '0', some ['0'], none⟩
  else if 0 < point ∧ point ≤ positionalLimit then
    ⟨negative, digits.take point.toNat, some (digits.drop point.toNat), none⟩
  else if -leadingZeroLimit < point ∧ point ≤ 0 then
    ⟨negative, ['0'], some (List.replicate (-point).toNat '0' ++ digits), none⟩
  else
    ⟨negative, digits.take 1, if digits.length = 1 then none else some (digits.drop 1),
      some (exponentOf (point - 1))⟩

/-- The size of an integer that is written without point and exponent and fits 64 bits,
with its sign. -/
def integer? (number : Number) : Option Nat :=
  match { number with negative := false }.toNat? with
  | none => none
  | some size =>
    if number.negative then if 0 < size ∧ size ≤ Nat.pow 2 63 then some size else none
    else some size

/-- The one spelling of what a number is worth. -/
def canonical (number : Number) : Number :=
  match number.integer? with
  | some size => { ofNat size with negative := number.negative }
  | none => ofDouble number.negative (number.toDouble?.getD Double.zero)

end Number

namespace Value

mutual

/-- The canonical form of a value. -/
def canonical : Value → Value
  | number n => .number n.canonical
  | array elements => .array (canonicalElements elements)
  | object members => .object (Catalog.ofList (canonicalMembers members)).entries
  | value => value

/-- The canonical forms of some values. -/
def canonicalElements : List Value → List Value
  | [] => []
  | element :: elements => canonical element :: canonicalElements elements

/-- Members with the canonical forms of their values. -/
def canonicalMembers : List (String × Value) → List (String × Value)
  | [] => []
  | (key, value) :: members => (key, canonical value) :: canonicalMembers members

end

end Value

end Lineage.Json
