import Lineage.Json.Fault

/-!
# Blanks, words and strings of JSON

The tokens below the level of values. Each reader takes the text and gives what it read together
with the text that is left, and each comes with the lemma that its rest is no longer than what it
was given; the readers above end by it.

Strings are read in two ways. `readText` unescapes the content and insists on Unicode: a surrogate
escape has to come as a pair, high half first. `skipText` only finds the closing quote; it checks
that every escape is one, but lets surrogates stand as they are.
-/

namespace Lineage.Json

/-! ### Blanks -/

/-- The characters that may stand between tokens. -/
def isBlank (c : Char) : Bool :=
  c == ' ' || c == '\t' || c == '\n' || c == '\r'

/-- The text from its first token on. -/
def dropBlanks (text : List Char) : List Char :=
  text.dropWhile isBlank

/-- Passing over blanks makes a text no longer. -/
theorem length_dropBlanks_le (text : List Char) : (dropBlanks text).length ≤ text.length :=
  (List.dropWhile_sublist _).length_le

/-- Behind its first token a text is shorter. -/
theorem length_of_dropBlanks {text rest : List Char} {c : Char} (h : dropBlanks text = c :: rest) :
    rest.length < text.length := by
  have := length_dropBlanks_le text
  rw [h, List.length_cons] at this
  omega

/-- Blanks in front of a text change nothing. -/
theorem dropBlanks_append {blanks : List Char} (h : ∀ c ∈ blanks, isBlank c) (text : List Char) :
    dropBlanks (blanks ++ text) = dropBlanks text := by
  induction blanks with
  | nil => rfl
  | cons c blanks ih =>
    have hc : isBlank c = true := h c (by simp)
    simp only [dropBlanks, List.cons_append, List.dropWhile_cons, hc, if_true]
    exact ih fun d hd => h d (by simp [hd])

/-! ### Words -/

/-- Reads the letters of a word; each of them is looked at before it is compared. -/
def readWord : List Char → List Char → Except Fault (List Char)
  | [], text => .ok text
  | _ :: _, [] => .error ⟨.endInValue, [], 0⟩
  | letter :: letters, c :: rest =>
    if c = letter then readWord letters rest else .error ⟨.misspeltWord, c :: rest, 1⟩

/-- A word takes as many characters as it has letters, perhaps none. -/
theorem length_of_readWord {letters text rest : List Char} (h : readWord letters text = .ok rest) :
    rest.length ≤ text.length := by
  -- Along the letters, each of which is compared with one character.
  induction letters generalizing text with
  | nil => simp_all [readWord]
  | cons letter letters ih =>
    cases text with
    | nil => simp [readWord] at h
    | cons c text =>
      simp only [readWord] at h
      split at h
      · exact Nat.le_trans (ih h) (by simp)
      · simp at h

/-! ### Escapes -/

/-- The value of a hexadecimal digit of either case. -/
def hexDigit? (c : Char) : Option Nat :=
  if '0' ≤ c ∧ c ≤ '9' then some (c.toNat - '0'.toNat)
  else if 'a' ≤ c ∧ c ≤ 'f' then some (c.toNat - 'a'.toNat + 10)
  else if 'A' ≤ c ∧ c ≤ 'F' then some (c.toNat - 'A'.toNat + 10)
  else none

/-- The number that four hexadecimal digits write. -/
def codeUnit? (a b c d : Char) : Option Nat :=
  match hexDigit? a, hexDigit? b, hexDigit? c, hexDigit? d with
  | some a, some b, some c, some d => some (((a * 16 + b) * 16 + c) * 16 + d)
  | _, _, _, _ => none

/-- The first half of a surrogate pair. -/
def isHighSurrogate (unit : Nat) : Bool :=
  0xD800 ≤ unit && unit ≤ 0xDBFF

/-- The second half of a surrogate pair. -/
def isLowSurrogate (unit : Nat) : Bool :=
  0xDC00 ≤ unit && unit ≤ 0xDFFF

/-- The character that a surrogate pair stands for. -/
def pairChar (high low : Nat) : Char :=
  Char.ofNat (0x10000 + (high - 0xD800) * 0x400 + (low - 0xDC00))

/-- What a backslash and one character stand for. -/
def shortEscape? : Char → Option Char
  | '"' => some '"'
  | '\\' => some '\\'
  | '/' => some '/'
  | 'b' => some '\x08'
  | 'f' => some '\x0c'
  | 'n' => some '\n'
  | 'r' => some '\r'
  | 't' => some '\t'
  | _ => none

/-- The characters below the space, which have to be escaped. -/
def isControl (c : Char) : Bool :=
  c.toNat < 0x20

/-- The fault of a text that should go on with four hexadecimal digits and does not: four bytes are
taken, and if there are not so many the text has ended. -/
def badUnit (text : List Char) : Fault :=
  if byteCount text < 4 then ⟨.endInString, [], 0⟩ else ⟨.invalidEscape, text, 4⟩

/-- The fault of a text that follows a high surrogate without being an escape. -/
def badPair : List Char → Fault
  | [] => ⟨.endInString, [], 0⟩
  | ['\\'] => ⟨.endInString, [], 0⟩
  | '\\' :: 'u' :: rest => badUnit rest
  | '\\' :: rest => ⟨.unfinishedPair, rest, 1⟩
  | rest => ⟨.unfinishedPair, rest, 1⟩

/-! ### Strings -/

/-- Reads the content of a string up to its closing quote, the characters read so far in `done`,
last one first. -/
def readTextFrom (done : List Char) : List Char → Except Fault (List Char × List Char)
  | [] => .error ⟨.endInString, [], 0⟩
  | '"' :: rest => .ok (done.reverse, rest)
  | '\\' :: 'u' :: a :: b :: c :: d :: rest =>
    match codeUnit? a b c d with
    | none => .error (badUnit (a :: b :: c :: d :: rest))
    | some unit =>
      -- A low half cannot come first, and a high one needs the low one behind it.
      if isLowSurrogate unit then .error ⟨.loneSurrogate, rest, 0⟩
      else if isHighSurrogate unit then
        match rest with
        | '\\' :: 'u' :: a :: b :: c :: d :: rest =>
          match codeUnit? a b c d with
          | none => .error (badUnit (a :: b :: c :: d :: rest))
          | some low =>
            if isLowSurrogate low then readTextFrom (pairChar unit low :: done) rest
            else .error ⟨.loneSurrogate, rest, 0⟩
        | rest => .error (badPair rest)
      else readTextFrom (Char.ofNat unit :: done) rest
  -- Fewer than four characters are left for the number.
  | '\\' :: 'u' :: rest => .error (badUnit rest)
  | '\\' :: c :: rest =>
    match shortEscape? c with
    | some escaped => readTextFrom (escaped :: done) rest
    | none => .error ⟨.invalidEscape, c :: rest, 1⟩
  | ['\\'] => .error ⟨.endInString, [], 0⟩
  | c :: rest =>
    if isControl c then .error ⟨.controlCharacter, c :: rest, 1⟩ else readTextFrom (c :: done) rest

/-- Reads a string whose opening quote has been taken. -/
def readText (text : List Char) : Except Fault (String × List Char) :=
  match readTextFrom [] text with
  | .ok (content, rest) => .ok (String.ofList content, rest)
  | .error fault => .error fault

/-- Passes over a string whose opening quote has been taken. -/
def skipText : List Char → Except Fault (List Char)
  | [] => .error ⟨.endInString, [], 0⟩
  | '"' :: rest => .ok rest
  | '\\' :: 'u' :: a :: b :: c :: d :: rest =>
    -- Any number will do here, half of a pair or not.
    if (codeUnit? a b c d).isSome then skipText rest
    else .error (badUnit (a :: b :: c :: d :: rest))
  | '\\' :: 'u' :: rest => .error (badUnit rest)
  | '\\' :: c :: rest =>
    if (shortEscape? c).isSome then skipText rest else .error ⟨.invalidEscape, c :: rest, 1⟩
  | ['\\'] => .error ⟨.endInString, [], 0⟩
  | c :: rest => if isControl c then .error ⟨.controlCharacter, c :: rest, 1⟩ else skipText rest

/-- The content of a string ends at a quote, which is taken. -/
theorem length_of_readTextFrom {done text content rest : List Char}
    (h : readTextFrom done text = .ok (content, rest)) : rest.length < text.length := by
  -- Every case takes the characters that it looks at off the text.
  fun_induction readTextFrom done text <;> simp_all <;> omega

/-- Behind a string a text is shorter. -/
theorem length_of_readText {text rest : List Char} {content : String}
    (h : readText text = .ok (content, rest)) : rest.length < text.length := by
  unfold readText at h
  split at h
  next heq =>
    simp only [Except.ok.injEq, Prod.mk.injEq] at h
    exact h.2 ▸ length_of_readTextFrom heq
  next => simp at h

/-- It is so whether the string is read or passed over. -/
theorem length_of_skipText {text rest : List Char} (h : skipText text = .ok rest) :
    rest.length < text.length := by
  fun_induction skipText text <;> simp_all <;> omega

end Lineage.Json
