import Lineage.Json.Magnitude
import Lineage.Proofs.Tokens
import Mathlib.Algebra.Ring.Nat

/-!
# Natural numbers in JSON

A natural number is written by its decimal digits, as the grammar asks for (`Number.isSpelt_ofNat`).
Below `2 ^ 64` the digits give the number back (`Number.toNat?_ofNat`), and it is in range for a
double (`Number.isSome_toDouble?_ofNat`): rounding adds at most one to a significand, so what is
multiplied stays far below the largest double.
-/

namespace Lineage

namespace Decimal.Double

/-! ### Doubles of natural numbers -/

section Unit

variable (num den : Nat)

/-- A unit is small enough for a significand to reach the numerator. -/
theorem unitOf_le : unitOf num den ≤ num.log2 - 52 := by
  unfold unitOf
  simp only
  split <;> omega

/-- The unit of a natural number is not much smaller than a significand asks for. -/
theorem le_unitOf_one : (-53 : Int) ≤ unitOf num 1 := by
  have hone : Nat.log2 1 = 0 := by decide
  unfold unitOf
  simp only [hone]
  split <;> omega

/-- Rounding adds at most one. -/
theorem roundedQuotient_le : roundedQuotient num den ≤ num + 1 := by
  have hdiv := Nat.div_le_self num den
  unfold roundedQuotient
  simp only
  split <;> omega

end Unit

/-- What a ratio is rounded to: so many units, or, if there are too many for a significand,
half of that. -/
theorem ofRatio?_eq {num : Nat} (h : num ≠ 0) (den : Nat) :
    ∃ x : Double, x.significand ≤ max (2 ^ 52) (roundedUnits num den (unitOf num den)) ∧
      x.exponent ≤ unitOf num den + 1 ∧
      ofRatio? num den = if 971 < x.exponent then none else some x := by
  rw [ofRatio?, if_neg h]
  refine ⟨_, ?_, ?_, rfl⟩
  · split
    · exact Nat.le_max_left _ _
    · exact Nat.le_max_right _ _
  · split
    · exact Int.le_refl _
    · exact Int.le_of_lt (Int.lt_succ _)

/-- A ratio has a double if its numerator is not too long. -/
theorem isSome_ofRatio? {num : Nat} (h : num < 2 ^ 256) (den : Nat) :
    (ofRatio? num den).isSome = true := by
  by_cases hzero : num = 0
  · rw [ofRatio?, if_pos hzero]
    rfl
  · obtain ⟨x, -, hexponent, hratio⟩ := ofRatio?_eq hzero den
    have hlog : num.log2 < 256 := (Nat.log2_lt hzero).2 h
    -- The exponent is at most one more than the unit, and so below the limit.
    have hunit := unitOf_le num den
    rw [hratio, if_neg (by omega)]
    rfl

/-- The double of a natural number is not much longer than the number. -/
theorem numerator_lt_of_ofNat? {n : Nat} (h : n < 2 ^ 64) {x : Double} (hx : ofNat? n = some x) :
    x.numerator < 2 ^ 200 := by
  by_cases hzero : n = 0
  · obtain rfl : zero = x := by simpa [ofNat?, ofRatio?, hzero] using hx
    decide
  · obtain ⟨y, hsignificand, hexponent, hratio⟩ := ofRatio?_eq hzero 1
    -- There is one double that the number is rounded to.
    have hxy : y = x := by
      rw [ofNat?, hratio] at hx
      split at hx
      · cases hx
      · exact Option.some.inj hx
    subst hxy
    have hlog : n.log2 < 64 := (Nat.log2_lt hzero).2 h
    have hunit := unitOf_le n 1
    have hunit' := le_unitOf_one n
    -- In its units the number has at most 117 binary digits.
    have hunits : roundedUnits n 1 (unitOf n 1) ≤ 2 ^ 117 := by
      have hshift : Nat.pow 2 (-unitOf n 1).toNat ≤ 2 ^ 53 :=
        Nat.pow_le_pow_right (by decide) (by omega)
      calc roundedUnits n 1 (unitOf n 1)
          ≤ n * Nat.pow 2 (-unitOf n 1).toNat + 1 := roundedQuotient_le _ _
        _ ≤ (2 ^ 64 - 1) * 2 ^ 53 + 1 := by
            have := Nat.mul_le_mul (Nat.le_sub_one_of_lt h) hshift
            omega
        _ ≤ 2 ^ 117 := by decide
    have hpower : Nat.pow 2 y.exponent.toNat ≤ 2 ^ 12 := Nat.pow_le_pow_right (by decide) (by omega)
    calc y.significand * Nat.pow 2 y.exponent.toNat
        ≤ 2 ^ 117 * 2 ^ 12 := Nat.mul_le_mul (hsignificand.trans (by omega)) hpower
      _ < 2 ^ 200 := by decide

end Decimal.Double

namespace Json

open Decimal

/-! ### Digits -/

/-- The digits of a number that is not zero do not start with a zero. -/
theorem exists_toDigits_cons {n : Nat} (h : 0 < n) :
    ∃ first more, Nat.toDigits 10 n = first :: more ∧ first ≠ '0' := by
  -- The first digit is that of the number without its last digit.
  induction n using Nat.strongRecOn with
  | _ n ih =>
    by_cases hsmall : n < 10
    · refine ⟨n.digitChar, [], Nat.toDigits_of_lt_base hsmall, ?_⟩
      rw [Ne, Nat.digitChar_eq_zero]
      omega
    · obtain ⟨first, more, hmore, hne⟩ := ih (n / 10) (by omega) (by omega)
      refine ⟨first, more ++ [(n % 10).digitChar], ?_, hne⟩
      rw [Nat.toDigits_of_base_le (by decide) (Nat.not_lt.1 hsmall), hmore, List.cons_append]

/-- The digits of a number are what the grammar asks for: there is no zero in front,
unless it is all. -/
theorem isWhole_toDigits (n : Nat) : IsWhole (Nat.toDigits 10 n) := by
  have hdigits : ∀ c ∈ Nat.toDigits 10 n, isDigit c = true :=
    fun c hc => Nat.isDigit_of_mem_toDigits (by decide) (by decide) hc
  -- A single zero is whole by a rule of its own.
  rcases Nat.eq_zero_or_pos n with rfl | hpos
  · rw [Nat.toDigits_zero]
    exact .zero
  · obtain ⟨first, more, hcons, hne⟩ := exists_toDigits_cons hpos
    rw [hcons] at hdigits ⊢
    obtain ⟨hfirst, hmore⟩ := List.forall_mem_cons.1 hdigits
    exact .digits hfirst hne hmore

namespace Scaled

/-- A digit that can be taken is taken. -/
theorem takeWhole_cons_of_push? {significand larger : Nat} {digit : Char}
    (h : push? significand digit = some larger) (digits : List Char) :
    takeWhole significand (digit :: digits) = takeWhole larger digits := by
  -- The recursion is opened by hand: an equation of `takeWhole` would compute the limit of `push?`.
  delta takeWhole
  dsimp only [List.brecOn, takeWhole._f]
  rw [h]

/-- Digits are all taken if what they write fits. -/
theorem takeWhole_eq {digits : List Char} {significand : Nat}
    (h : Nat.ofDigitChars 10 digits significand < 2 ^ 64) :
    takeWhole significand digits = ⟨Nat.ofDigitChars 10 digits significand, 0⟩ := by
  induction digits generalizing significand with
  | nil => rfl
  | cons digit digits ih =>
    rw [Nat.ofDigitChars_cons, Nat.mul_comm] at h ⊢
    -- What is taken so far is not more than what is taken in the end.
    have hgrows (taken : Nat) : taken ≤ Nat.ofDigitChars 10 digits taken := by
      rw [Nat.ofDigitChars_eq_ofDigitChars_zero]
      exact (Nat.le_mul_of_pos_left taken (Nat.pow_pos (by decide))).trans (Nat.le_add_right _ _)
    have hfits : significand * 10 + (digit.toNat - '0'.toNat) < Nat.pow 2 64 :=
      Nat.lt_of_le_of_lt (hgrows _) h
    rw [takeWhole_cons_of_push? (if_pos hfits)]
    exact ih h

end Scaled

namespace Number

/-- A natural number has neither fraction nor exponent. -/
theorem isSpelt_ofNat (n : Nat) : (ofNat n).IsSpelt where
  whole := isWhole_toDigits n
  fraction := fun _ h => nomatch h
  exponent := fun _ h => nomatch h

variable {n : Nat} (h : n < 2 ^ 64)
include h

/-- All digits are taken, since the number fits. -/
theorem takeWhole_ofNat : Scaled.takeWhole 0 (ofNat n).whole = ⟨n, 0⟩ := by
  have hvalue : Nat.ofDigitChars 10 (Nat.toDigits 10 n) 0 = n := Nat.ofDigitChars_ten_toDigits
  have hfits : Nat.ofDigitChars 10 (Nat.toDigits 10 n) 0 < 2 ^ 64 := by rwa [hvalue]
  have htaken := Scaled.takeWhole_eq hfits
  rwa [hvalue] at htaken

/-- **The digits of a natural number give it back.** -/
theorem toNat?_ofNat : (ofNat n).toNat? = some n := by
  rw [toNat?, takeWhole_ofNat h]
  rfl

/-- **A natural number is in range.** -/
theorem isSome_toDouble?_ofNat : (ofNat n).toDouble?.isSome = true := by
  have hscaled : (ofNat n).scaled = ⟨n, 0⟩ := by
    show (Scaled.takeWhole 0 (ofNat n).whole).takeFraction [] = ⟨n, 0⟩
    rw [takeWhole_ofNat h]
    rfl
  show (ofNat n).scaled.toDouble?.isSome = true
  rw [hscaled, Scaled.toDouble?]
  simp only [Int.lt_irrefl, if_false]
  split
  · rfl
  · rw [if_neg (by decide)]
    -- The factor is a one, and both numerators are short.
    obtain ⟨x, hx⟩ := Option.isSome_iff_exists.1
      (Double.isSome_ofRatio? (Nat.lt_trans h (Nat.pow_lt_pow_right (by decide) (by decide))) 1)
    have hfactor : (Scaled.powerOfTen (Int.toNat 0)).numerator = 2 ^ 52 := by decide
    have hnumerator := Double.numerator_lt_of_ofNat? h hx
    refine Double.isSome_ofRatio? ?_ _
    rw [Double.ofNat?, hx, hfactor]
    calc x.numerator * 2 ^ 52
        < 2 ^ 200 * 2 ^ 52 := Nat.mul_lt_mul_of_pos_right hnumerator (by decide)
      _ < 2 ^ 256 := by decide

end Number

end Json

end Lineage
