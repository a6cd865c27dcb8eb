import Lineage.Json.Printer
import Mathlib.Tactic.SplitIfs

/-!
# How characters are written

A string is written with escapes for the quote, the backslash and the control characters. So a
character is written in one of three ways, and these are the cases of all that is said about it
(`Escapes`). In none of them a control character is written as it is (`Escapes.isControl_eq`).
-/

namespace Lineage.Json

/-- The digit that a number below sixteen is written as stands for it. -/
theorem hexDigit?_hexChar {n : Nat} (h : n < 16) : hexDigit? (hexChar n) = some n := by
  have hall : ∀ n < 16, hexDigit? (hexChar n) = some n := by decide
  exact hall n h

/-- A number below `0x20` takes two of the four digits, and the others are zeros. -/
theorem codeUnit?_hexChar {n : Nat} (h : n < 0x20) :
    codeUnit? '0' '0' (hexChar (n / 16)) (hexChar (n % 16)) = some n := by
  have hzero : hexDigit? '0' = some 0 := by decide
  simp only [codeUnit?, hzero, hexDigit?_hexChar (show n / 16 < 16 by omega),
    hexDigit?_hexChar (Nat.mod_lt n (by decide))]
  -- Left is the division of `n` by sixteen.
  congr 1
  omega

/-- The three ways in which a character may stand in a string. -/
inductive Escapes (c : Char) : List Char → Prop
  | short {letter : Char} (hletter : shortEscape? letter = some c) : Escapes c ['\\', letter]
  /-- A control character is told by its number. -/
  | unit (hcontrol : c.toNat < 0x20) :
      Escapes c ['\\', 'u', '0', '0', hexChar (c.toNat / 16), hexChar (c.toNat % 16)]
  | plain (hquote : c ≠ '"') (hbackslash : c ≠ '\\') (hcontrol : isControl c = false) :
      Escapes c [c]

/-- **A character is written in one of these ways.** -/
theorem escapes_escapeChar (c : Char) : Escapes c (escapeChar c) := by
  unfold escapeChar
  split_ifs with hquote hbackslash h1 h2 h3 h4 h5 hcontrol
  · subst hquote
    exact .short rfl
  · subst hbackslash
    exact .short rfl
  · subst h1
    exact .short rfl
  · subst h2
    exact .short rfl
  · subst h3
    exact .short rfl
  · subst h4
    exact .short rfl
  · subst h5
    exact .short rfl
  · -- The characters with an escape of their own are done, so a control character is left here.
    exact .unit (of_decide_eq_true hcontrol)
  · exact .plain hquote hbackslash (Bool.eq_false_iff.2 hcontrol)

section Escapes

variable {c : Char} {written : List Char}

/-- The letter of a short escape is never the one that digits follow. -/
theorem ne_u_of_shortEscape? {letter : Char} (h : shortEscape? letter = some c) : letter ≠ 'u' := by
  rintro rfl
  exact nomatch h

/-- Nor is it a control character. -/
theorem isControl_of_shortEscape? {letter : Char} (h : shortEscape? letter = some c) :
    isControl letter = false := by
  unfold shortEscape? at h
  split at h <;> first | rfl | exact nomatch h

/-- What is written holds no control character. -/
theorem Escapes.isControl_eq (h : Escapes c written) : ∀ d ∈ written, isControl d = false := by
  cases h with
  | short hletter =>
    intro d hd
    simp only [List.mem_cons, List.not_mem_nil, or_false] at hd
    rcases hd with rfl | rfl
    · rfl
    · exact isControl_of_shortEscape? hletter
  | unit hcontrol =>
    have hhex : ∀ n < 16, isControl (hexChar n) = false := by decide
    intro d hd
    simp only [List.mem_cons, List.not_mem_nil, or_false] at hd
    rcases hd with rfl | rfl | rfl | rfl | rfl | rfl
    · rfl
    · rfl
    · rfl
    · rfl
    · -- The first digit is at most `1`, since `c` is below `0x20`.
      exact hhex _ (by omega)
    · exact hhex _ (Nat.mod_lt _ (by decide))
  | plain hquote hbackslash hcontrol =>
    intro d hd
    rwa [List.mem_singleton.1 hd]

end Escapes

end Lineage.Json
