import Lineage.Json.Number
import Lineage.Decimal.Double

/-!
# The size of a number

A spelt number is taken as a double in two steps. The digits are gathered into a significand as long
as it stays below `2 ^ 64`; digits before the point that no longer fit raise the scale by ten each,
and digits after the point from the first that does not fit are dropped. The significand is then
multiplied by a power of ten, or divided by one, each step rounded to the nearest double, so that
the outcome may miss the double nearest to the number by a little.

A number is out of range (`Number.outOfRange?`) when this leaves the finite doubles.
-/

namespace Lineage.Json

open Lineage.Decimal

/-- A significand below `2 ^ 64` and the power of ten that it counts. -/
structure Scaled where
  significand : Nat
  /-- The power of ten that the last digit taken counts. -/
  scale : Int
deriving DecidableEq, Repr

namespace Scaled

/-- The significand with one more digit, if it still fits. -/
def push? (significand : Nat) (digit : Char) : Option Nat :=
  let larger := significand * 10 + (digit.toNat - '0'.toNat)
  if larger < Nat.pow 2 64 then some larger else none

/-- Takes the digits before the point. -/
def takeWhole (significand : Nat) : List Char → Scaled
  | [] => ⟨significand, 0⟩
  | digit :: digits =>
    match push? significand digit with
    | some larger => takeWhole larger digits
    | none => ⟨significand, (digit :: digits).length⟩

/-- Takes the digits after the point. -/
def takeFraction (taken : Scaled) : List Char → Scaled
  | [] => taken
  | digit :: digits =>
    match push? taken.significand digit with
    | some larger => takeFraction ⟨larger, taken.scale - 1⟩ digits
    | none => taken

/-- Keeps a scale within 32 bits. -/
def clamp (scale : Int) : Int :=
  max (-2147483648) (min 2147483647 scale)

/-- The double of a power of ten up to `10 ^ 308`. -/
def powerOfTen (exponent : Nat) : Double :=
  (Double.ofNat? (Nat.pow 10 exponent)).getD Double.zero

/-- Divides by a power of ten, in steps of `10 ^ 308` at most. -/
def shrink (x : Double) (exponent : Nat) : Double :=
  if exponent ≤ 308 then (x.div? (powerOfTen exponent)).getD Double.zero
  -- Zero stays as it is, however often it is divided.
  else if x = Double.zero then x
  else shrink ((x.div? (powerOfTen 308)).getD Double.zero) (exponent - 308)
termination_by exponent

/-- The double of a scaled significand, if there is a finite one. -/
def toDouble? (taken : Scaled) : Option Double :=
  let x := (Double.ofNat? taken.significand).getD Double.zero
  if taken.scale < 0 then some (shrink x (-taken.scale).toNat)
  else if x = Double.zero then some x
  else if 308 < taken.scale then none
  else x.mul? (powerOfTen taken.scale.toNat)

end Scaled

namespace Number

/-- The number that a row of digits writes. -/
def digitsValue (digits : List Char) : Nat :=
  digits.foldl (fun value digit => value * 10 + (digit.toNat - '0'.toNat)) 0

/-- The largest exponent that is added to the scale. -/
def exponentLimit : Nat := 2147483647

/-- The digits of a number before its exponent. -/
def scaled (number : Number) : Scaled :=
  (Scaled.takeWhole 0 number.whole).takeFraction (number.fraction.getD [])

/-- The double that a number stands for, sign apart, if it is in range. -/
def toDouble? (number : Number) : Option Double :=
  let taken := number.scaled
  match number.exponent with
  | none => taken.toDouble?
  | some exponent =>
    let value := digitsValue exponent.digits
    if exponentLimit < value then
      -- Past the limit the digits no longer matter: the number is zero or out of range.
      if taken.significand ≠ 0 ∧ exponent.isNegative = false then none else some Double.zero
    else if exponent.isNegative then Scaled.toDouble?
      ⟨taken.significand, Scaled.clamp (taken.scale - value)⟩
    else Scaled.toDouble? ⟨taken.significand, Scaled.clamp (taken.scale + value)⟩

/-- The natural number that a number writes, if it has neither sign, point nor exponent and
fits 64 bits. -/
def toNat? (number : Number) : Option Nat :=
  if number.negative ∨ number.fraction.isSome ∨ number.exponent.isSome then none
  else
    let taken := Scaled.takeWhole 0 number.whole
    if taken.scale = 0 then some taken.significand else none

/-- How many digits of an exponent are read until it is known to be too large. -/
def excessiveDigits (value : Nat) : List Char → Nat
  | [] => 0
  | digit :: digits =>
    let larger := value * 10 + (digit.toNat - '0'.toNat)
    if exponentLimit < larger then 1 else excessiveDigits larger digits + 1

/-- The fault of a number that is out of range: it is known at the end of the number, or as soon as
the exponent has grown too large. `rest` is the text behind the number. -/
def outOfRange? (number : Number) (rest : List Char) : Option Fault :=
  match number.toDouble? with
  | some _ => none
  | none =>
    match number.exponent with
    | none => some ⟨.numberOutOfRange, rest, 0⟩
    -- Digits of the exponent that were not read any more are still to be read.
    | some exponent =>
      some ⟨.numberOutOfRange, exponent.digits.drop (excessiveDigits 0 exponent.digits) ++ rest, 0⟩

end Number

end Lineage.Json
