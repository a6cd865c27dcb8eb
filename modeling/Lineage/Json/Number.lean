import Lineage.Json.Token

/-!
# Numbers as they are spelt

A JSON number is kept as its spelling: the sign, the digits before and after the point, and the
exponent with its own sign. `Number.spelling` gives the characters back, so nothing that a device
wrote is lost, however many digits there are. What the spelling is worth as a quantity is a separate
question (`Lineage.Json.Magnitude`).
-/

namespace Lineage.Json

def isDigit (c : Char) : Bool :=
  '0' ≤ c && c ≤ '9'

/-- The digits that start a text. -/
def leadingDigits (text : List Char) : List Char :=
  text.takeWhile isDigit

/-- The text behind its leading digits. -/
def afterDigits (text : List Char) : List Char :=
  text.dropWhile isDigit

/-- Passing over digits makes a text no longer. -/
theorem length_afterDigits_le (text : List Char) : (afterDigits text).length ≤ text.length :=
  (List.dropWhile_sublist _).length_le

/-- The exponent of a number. -/
structure Exponent where
  mark : Char
  sign : Option Char
  digits : List Char
deriving DecidableEq, Repr

/-- Whether the exponent makes the number smaller. -/
def Exponent.isNegative (exponent : Exponent) : Bool :=
  exponent.sign == some '-'

def Exponent.spelling (exponent : Exponent) : List Char :=
  exponent.mark :: (exponent.sign.toList ++ exponent.digits)

/-- A number as it is spelt. -/
structure Number where
  negative : Bool
  whole : List Char
  /-- The digits after the point, if there is one. -/
  fraction : Option (List Char)
  exponent : Option Exponent
deriving DecidableEq, Repr

namespace Number

def spelling (number : Number) : List Char :=
  (if number.negative then ['-'] else []) ++ number.whole
    ++ (match number.fraction with | some digits => '.' :: digits | none => [])
    ++ (match number.exponent with | some exponent => exponent.spelling | none => [])

/-- The number that a natural number is written as. -/
def ofNat (n : Nat) : Number :=
  ⟨false, Nat.toDigits 10 n, none, none⟩

/-- Reads the digits before the point: a zero stands alone, any other digit takes all that
follow. -/
def readWhole : List Char → Except Fault (List Char × List Char)
  | [] => .error ⟨.endInValue, [], 0⟩
  | '0' :: rest =>
    match rest with
    -- A digit behind a leading zero is refused, whatever follows.
    | c :: _ => if isDigit c then .error ⟨.invalidNumber, rest, 1⟩ else .ok (['0'], rest)
    | [] => .ok (['0'], rest)
  | c :: rest =>
    if isDigit c then .ok (c :: leadingDigits rest, afterDigits rest)
    else .error ⟨.invalidNumber, c :: rest, 1⟩

/-- Reads a point and the digits after it, if a point is next. -/
def readFraction : List Char → Except Fault (Option (List Char) × List Char)
  | '.' :: rest =>
    match leadingDigits rest with
    -- A point without a digit: the text has ended, or its next character is wrong.
    | [] => if rest.isEmpty then .error ⟨.endInValue, [], 0⟩ else .error ⟨.invalidNumber, rest, 1⟩
    | digits => .ok (some digits, afterDigits rest)
  | text => .ok (none, text)

/-- Takes a sign, if one is next. -/
def takeSign : List Char → Option Char × List Char
  | '+' :: rest => (some '+', rest)
  | '-' :: rest => (some '-', rest)
  | text => (none, text)

/-- Reads the digits of an exponent after its letter and its sign. -/
def readExponentDigits (mark : Char) (sign : Option Char) :
    List Char → Except Fault (Option Exponent × List Char)
  | [] => .error ⟨.endInValue, [], 0⟩
  | c :: rest =>
    if isDigit c then .ok (some ⟨mark, sign, c :: leadingDigits rest⟩, afterDigits rest)
    else .error ⟨.invalidNumber, c :: rest, 1⟩

/-- Reads an exponent, if its letter is next. -/
def readExponent : List Char → Except Fault (Option Exponent × List Char)
  | c :: rest =>
    -- A sign is allowed between the letter and the digits.
    if c = 'e' ∨ c = 'E' then readExponentDigits c (takeSign rest).1 (takeSign rest).2
    else .ok (none, c :: rest)
  | [] => .ok (none, [])

/-- Reads the unsigned part of a number. -/
def readUnsigned (negative : Bool) (text : List Char) : Except Fault (Number × List Char) :=
  match readWhole text with
  | .error fault => .error fault
  | .ok (whole, text) =>
    match readFraction text with
    | .error fault => .error fault
    | .ok (fraction, text) =>
      match readExponent text with
      | .error fault => .error fault
      | .ok (exponent, rest) => .ok (⟨negative, whole, fraction, exponent⟩, rest)

/-- Reads a number that starts the text. It ends before the first character that cannot
go on with it. -/
def read : List Char → Except Fault (Number × List Char)
  | '-' :: rest => readUnsigned true rest
  | text => readUnsigned false text

/-- Passes over a number. It is spelt by the same rules, but a number that breaks off counts
as a wrong one. -/
def skip (text : List Char) : Except Fault (List Char) :=
  match read text with
  | .ok (_, rest) => .ok rest
  | .error fault => .error { fault with reason := .invalidNumber }

/-! ### Lengths -/

/-- A number has a digit at least, so what is behind its whole part is shorter. -/
theorem length_of_readWhole {text digits rest : List Char}
    (h : readWhole text = .ok (digits, rest)) : rest.length < text.length := by
  unfold readWhole at h
  split at h
  · simp at h
  · split at h
    · split at h
      · simp at h
      · simp only [Except.ok.injEq, Prod.mk.injEq] at h
        simp [← h.2]
    · simp only [Except.ok.injEq, Prod.mk.injEq] at h
      simp [← h.2]
  -- Any other digit: the ones that follow it are dropped as well.
  next c tail _ =>
    split at h
    · simp only [Except.ok.injEq, Prod.mk.injEq] at h
      have := length_afterDigits_le tail
      simp only [← h.2, List.length_cons]
      omega
    · simp at h

/-- A fraction may be absent. -/
theorem length_of_readFraction {text rest : List Char} {digits : Option (List Char)}
    (h : readFraction text = .ok (digits, rest)) : rest.length ≤ text.length := by
  unfold readFraction at h
  split at h
  next tail =>
    split at h
    · split at h <;> simp at h
    · simp only [Except.ok.injEq, Prod.mk.injEq] at h
      have := length_afterDigits_le tail
      simp only [← h.2, List.length_cons]
      omega
  · simp_all

/-- So may a sign. -/
theorem length_takeSign_le (text : List Char) : (takeSign text).2.length ≤ text.length := by
  unfold takeSign
  split <;> simp

/-- The digits of an exponent are taken off the text. -/
theorem length_of_readExponentDigits {mark : Char} {sign : Option Char} {text rest : List Char}
    {exponent : Option Exponent} (h : readExponentDigits mark sign text = .ok (exponent, rest)) :
    rest.length ≤ text.length := by
  unfold readExponentDigits at h
  split at h
  · simp at h
  next c tail =>
    split at h
    · simp only [Except.ok.injEq, Prod.mk.injEq] at h
      have := length_afterDigits_le tail
      simp only [← h.2, List.length_cons]
      omega
    · simp at h

/-- An exponent may be absent too. -/
theorem length_of_readExponent {text rest : List Char} {exponent : Option Exponent}
    (h : readExponent text = .ok (exponent, rest)) : rest.length ≤ text.length := by
  unfold readExponent at h
  split at h
  next c tail =>
    split at h
    · have h1 := length_of_readExponentDigits h
      have h2 := length_takeSign_le tail
      simp only [List.length_cons]
      omega
    · simp_all
  · simp_all

/-- The parts of a number follow one another, and the first of them is not empty. -/
theorem length_of_readUnsigned {negative : Bool} {text rest : List Char} {number : Number}
    (h : readUnsigned negative text = .ok (number, rest)) : rest.length < text.length := by
  unfold readUnsigned at h
  split at h
  · simp at h
  next heq1 =>
    split at h
    · simp at h
    next heq2 =>
      split at h
      · simp at h
      next heq3 =>
        simp only [Except.ok.injEq, Prod.mk.injEq] at h
        -- Only the whole part is sure to take something, which is enough.
        have h1 := length_of_readWhole heq1
        have h2 := length_of_readFraction heq2
        have h3 := length_of_readExponent heq3
        rw [← h.2]
        omega

/-- Behind a number a text is shorter. -/
theorem length_of_read {text rest : List Char} {number : Number}
    (h : read text = .ok (number, rest)) : rest.length < text.length := by
  unfold read at h
  split at h
  · have := length_of_readUnsigned h
    simp only [List.length_cons]
    omega
  · exact length_of_readUnsigned h

/-- It is so whether the number is read or passed over. -/
theorem length_of_skip {text rest : List Char} (h : skip text = .ok rest) :
    rest.length < text.length := by
  unfold skip at h
  split at h
  next heq =>
    simp only [Except.ok.injEq] at h
    exact h ▸ length_of_read heq
  · simp at h

end Number

end Lineage.Json
