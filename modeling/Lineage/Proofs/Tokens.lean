import Lineage.Json.Outline
import Lineage.Proofs.Escapes
import Mathlib.Data.List.TakeWhile

/-!
# Strings and numbers of the grammar

The tokens of JSON, said without reading them. The inside of a string `Denotes` a row of characters,
each of which stands for itself or is escaped in one of three ways. A number is a spelling: that of
a `Number` whose digits are digits (`Number.IsSpelt`).

Reading is exact in both directions. The inside of a string is read as what it denotes and passed
over up to the quote that closes it (`Denotes.readTextFrom_append`, `Denotes.skipText_append`), and
what is read was denoted (`exists_denotes`). A number is read as it is spelt, unless what follows
could go on with it (`Number.IsSpelt.read_append`), and what is read was spelt so
(`Number.isSpelt_of_read`).
-/

namespace Lineage.Json

/-! ### Strings -/

/-- What the inside of a string denotes. -/
inductive Denotes : List Char → List Char → Prop
  | nil : Denotes [] []
  | plain {c : Char} {source content : List Char} (hquote : c ≠ '"') (hbackslash : c ≠ '\\')
      (hcontrol : isControl c = false) (hrest : Denotes source content) :
      Denotes (c :: source) (c :: content)
  | short {letter c : Char} {source content : List Char} (hletter : shortEscape? letter = some c)
      (hrest : Denotes source content) : Denotes ('\\' :: letter :: source) (c :: content)
  /-- A character of the basic plane may be told by its number. -/
  | unit {a b c d : Char} {unit : Nat} {source content : List Char}
      (hunit : codeUnit? a b c d = some unit) (hlow : isLowSurrogate unit = false)
      (hhigh : isHighSurrogate unit = false) (hrest : Denotes source content) :
      Denotes ('\\' :: 'u' :: a :: b :: c :: d :: source) (Char.ofNat unit :: content)
  /-- Any other character may be told by two surrogates. -/
  | pair {a b c d e f g h : Char} {high low : Nat} {source content : List Char}
      (hhigh : codeUnit? a b c d = some high) (hishigh : isHighSurrogate high = true)
      (hlow : codeUnit? e f g h = some low) (hislow : isLowSurrogate low = true)
      (hrest : Denotes source content) :
      Denotes ('\\' :: 'u' :: a :: b :: c :: d :: '\\' :: 'u' :: e :: f :: g :: h :: source)
        (pairChar high low :: content)

/-- A high surrogate is no low one. -/
theorem isLowSurrogate_of_isHighSurrogate {unit : Nat} (h : isHighSurrogate unit = true) :
    isLowSurrogate unit = false := by
  rw [isHighSurrogate, Bool.and_eq_true, decide_eq_true_eq, decide_eq_true_eq] at h
  rw [isLowSurrogate, Bool.and_eq_false_iff, decide_eq_false_iff_not]
  omega

/-- Reading goes up to the quote behind a string. -/
theorem Denotes.readTextFrom_append {source content : List Char} (h : Denotes source content)
    (done rest : List Char) :
    readTextFrom done (source ++ '"' :: rest) = .ok (done.reverse ++ content, rest) := by
  induction h generalizing done with
  | nil => simp [readTextFrom]
  | plain hquote hbackslash hcontrol hrest ih => simp [readTextFrom, hbackslash, hcontrol, ih]
  | short hletter hrest ih => simp [readTextFrom, ne_u_of_shortEscape? hletter, hletter, ih]
  | unit hunit hlow hhigh hrest ih => simp [readTextFrom, hunit, hlow, hhigh, ih]
  | pair hhigh hishigh hlow hislow hrest ih =>
    simp [readTextFrom, hhigh, isLowSurrogate_of_isHighSurrogate hishigh, hishigh, hlow, hislow, ih]

/-- So a string is read as the text that it denotes. -/
theorem Denotes.readText_append {source content : List Char} (h : Denotes source content)
    (rest : List Char) : readText (source ++ '"' :: rest) = .ok (String.ofList content, rest) := by
  rw [readText, h.readTextFrom_append]
  rfl

/-- Passing over a string goes up to the same quote. -/
theorem Denotes.skipText_append {source content : List Char} (h : Denotes source content)
    (rest : List Char) : skipText (source ++ '"' :: rest) = .ok rest := by
  induction h with
  | nil => simp [skipText]
  | plain hquote hbackslash hcontrol hrest ih => simp [skipText, hbackslash, hcontrol, ih]
  | short hletter hrest ih => simp [skipText, ne_u_of_shortEscape? hletter, hletter, ih]
  | unit hunit hlow hhigh hrest ih => simp [skipText, hunit, ih]
  | pair hhigh hishigh hlow hislow hrest ih => simp [skipText, hhigh, hlow, ih]

/-- One more character is denoted by what stands for it. -/
theorem exists_denotes_cons (written : List Char) {done text content rest : List Char} {c : Char}
    (hwritten : ∀ {source new : List Char}, Denotes source new →
      Denotes (written ++ source) (c :: new))
    (h : ∃ source new, Denotes source new ∧ text = source ++ '"' :: rest ∧
      content = (c :: done).reverse ++ new) :
    ∃ source new, Denotes source new ∧ written ++ text = source ++ '"' :: rest ∧
      content = done.reverse ++ new := by
  obtain ⟨source, new, hdenotes, rfl, rfl⟩ := h
  exact ⟨written ++ source, c :: new, hwritten hdenotes, (List.append_assoc _ _ _).symm, by simp⟩

/-- **What is read was denoted.** -/
theorem exists_denotes {done text content rest : List Char}
    (h : readTextFrom done text = .ok (content, rest)) :
    ∃ source new, Denotes source new ∧ text = source ++ '"' :: rest ∧
      content = done.reverse ++ new := by
  -- The cases are those of the reader; where it goes on, one more character was denoted.
  fun_induction readTextFrom done text with
  | case2 done rest' =>
    obtain ⟨rfl, rfl⟩ := Prod.mk.inj (Except.ok.inj h)
    exact ⟨[], [], .nil, rfl, (List.append_nil _).symm⟩
  | case6 done a b c d high hhigh hnotlow hishigh e f g i rest' low hlow hislow ih =>
    exact exists_denotes_cons ['\\', 'u', a, b, c, d, '\\', 'u', e, f, g, i]
      (.pair hhigh hishigh hlow hislow) (ih h)
  | case9 done a b c d rest' unit hunit hnotlow hnothigh ih =>
    exact exists_denotes_cons ['\\', 'u', a, b, c, d]
      (.unit hunit (Bool.eq_false_iff.2 hnotlow) (Bool.eq_false_iff.2 hnothigh)) (ih h)
  | case11 done letter rest' _ _ c hletter ih =>
    exact exists_denotes_cons ['\\', letter] (.short hletter) (ih h)
  | case15 done c rest' hquote _ hunit hbackslash hlast hcontrol ih =>
    -- A backslash would have been read as an escape.
    have hne : c ≠ '\\' := by
      rintro rfl
      cases rest' with
      | nil => exact hlast rfl rfl
      | cons d rest' => exact hbackslash d rest' rfl rfl
    exact exists_denotes_cons [c] (.plain hquote hne (Bool.eq_false_iff.2 hcontrol)) (ih h)
  -- In the other cases the reader stops with a fault.
  | _ => cases h

/-! ### Numbers -/

/-- Whether there is at least one digit, and nothing else. -/
structure AreDigits (text : List Char) : Prop where
  ne_nil : text ≠ []
  isDigit_of_mem : ∀ c ∈ text, isDigit c = true

/-- Whether a text may stand before the point of a number: a zero stands alone. -/
inductive IsWhole : List Char → Prop
  | zero : IsWhole ['0']
  | digits {first : Char} {more : List Char} (hfirst : isDigit first = true) (hzero : first ≠ '0')
      (hmore : ∀ c ∈ more, isDigit c = true) : IsWhole (first :: more)

structure Exponent.IsSpelt (exponent : Exponent) : Prop where
  mark : exponent.mark = 'e' ∨ exponent.mark = 'E'
  sign : ∀ c ∈ exponent.sign, c = '+' ∨ c = '-'
  digits : AreDigits exponent.digits

/-- Before the point there are digits only. -/
theorem IsWhole.isDigit_of_mem {whole : List Char} (h : IsWhole whole) {c : Char} (hc : c ∈ whole) :
    isDigit c = true := by
  cases h with
  | zero => exact List.mem_singleton.1 hc ▸ rfl
  | digits hfirst hzero hmore =>
    rcases List.mem_cons.1 hc with rfl | hc
    · exact hfirst
    · exact hmore c hc

/-- And there is at least one. -/
theorem IsWhole.exists_cons {whole : List Char} (h : IsWhole whole) :
    ∃ first more, whole = first :: more ∧ isDigit first = true := by
  cases h with
  | zero => exact ⟨'0', [], rfl, by decide⟩
  | digits hfirst hzero hmore => exact ⟨_, _, rfl, hfirst⟩

/-- Whether the spelling of a number is one that the grammar allows. -/
structure Number.IsSpelt (number : Number) : Prop where
  whole : IsWhole number.whole
  fraction : ∀ digits ∈ number.fraction, AreDigits digits
  exponent : ∀ exponent ∈ number.exponent, exponent.IsSpelt

/-- Whether a text does not go on with digits. -/
def EndsDigits (rest : List Char) : Prop :=
  ∀ c ∈ rest.head?, isDigit c = false

/-- Whether a text does not go on with a number in front of it. -/
structure EndsNumber (rest : List Char) : Prop where
  digit : EndsDigits rest
  point : ∀ c ∈ rest.head?, c ≠ '.'
  mark : ∀ c ∈ rest.head?, c ≠ 'e' ∧ c ≠ 'E'

/-- Digits are taken up to what goes on with none. -/
theorem leadingDigits_append {digits rest : List Char} (hdigits : ∀ c ∈ digits, isDigit c = true)
    (hrest : EndsDigits rest) :
    leadingDigits (digits ++ rest) = digits ∧ afterDigits (digits ++ rest) = rest := by
  rw [leadingDigits, afterDigits, List.takeWhile_append_of_pos hdigits,
    List.dropWhile_append_of_pos hdigits]
  cases rest with
  | nil => exact ⟨List.append_nil _, rfl⟩
  -- `c` is no digit, so the taking stops before it.
  | cons c rest =>
    have hc : ¬ isDigit c = true := Bool.eq_false_iff.1 (hrest c rfl)
    rw [List.takeWhile_cons_of_neg hc, List.dropWhile_cons_of_neg hc, List.append_nil]
    exact ⟨rfl, rfl⟩

/-- What is taken and what is left are the text. -/
theorem leadingDigits_append_afterDigits (text : List Char) :
    leadingDigits text ++ afterDigits text = text :=
  List.takeWhile_append_dropWhile

/-- Nothing but digits is taken. -/
theorem isDigit_of_mem_leadingDigits {text : List Char} {c : Char} (h : c ∈ leadingDigits text) :
    isDigit c = true :=
  List.mem_takeWhile_imp h

namespace Number

/-- How a point and the digits behind it are spelt. -/
def fractionSpelling : Option (List Char) → List Char
  | some digits => '.' :: digits
  | none => []

def exponentSpelling : Option Exponent → List Char
  | some exponent => exponent.spelling
  | none => []

/-- The spelling of a number by its parts. -/
theorem spelling_eq (number : Number) :
    number.spelling =
      (if number.negative then ['-'] else []) ++ (number.whole ++
        (fractionSpelling number.fraction ++ exponentSpelling number.exponent)) := by
  obtain ⟨negative, whole, fraction, exponent⟩ := number
  rw [spelling, List.append_assoc, List.append_assoc]
  cases fraction <;> cases exponent <;> rfl

/-- The characters that numbers are spelt with. -/
def IsNumeral (c : Char) : Prop :=
  isDigit c = true ∨ c = '-' ∨ c = '+' ∨ c = '.' ∨ c = 'e' ∨ c = 'E'

/-- A number is spelt with digits, signs, the point and the marks of an exponent. -/
theorem IsSpelt.isNumeral_of_mem {number : Number} (h : number.IsSpelt) {c : Char}
    (hc : c ∈ number.spelling) : IsNumeral c := by
  obtain ⟨negative, whole, fraction, exponent⟩ := number
  obtain ⟨hwhole, hfraction, hexponent⟩ := h
  -- Behind the sign there are the digits, then the point with others, and then the exponent.
  rw [spelling_eq, List.mem_append, List.mem_append, List.mem_append] at hc
  rcases hc with hsign | hdigits | hpoint | hmark
  · cases negative with
    | true => exact .inr (.inl (List.mem_singleton.1 hsign))
    | false => exact nomatch hsign
  · exact .inl (hwhole.isDigit_of_mem hdigits)
  · cases fraction with
    | none => exact nomatch hpoint
    | some digits =>
      rcases List.mem_cons.1 hpoint with rfl | hdigits
      · exact .inr (.inr (.inr (.inl rfl)))
      · exact .inl ((hfraction digits rfl).isDigit_of_mem c hdigits)
  · cases exponent with
    | none => exact nomatch hmark
    | some exponent =>
      obtain ⟨hmarks, hsigns, hdigits⟩ := hexponent exponent rfl
      rw [exponentSpelling, Exponent.spelling, List.mem_cons, List.mem_append, Option.mem_toList]
        at hmark
      rcases hmark with rfl | hsign | hdigit
      · exact .inr (.inr (.inr (.inr hmarks)))
      · exact (hsigns c hsign).elim (fun hplus => .inr (.inr (.inl hplus))) fun hminus =>
          .inr (.inl hminus)
      · exact .inl (hdigits.isDigit_of_mem c hdigit)

section Complete

variable {rest : List Char}

/-- The digits before the point are read up to their end. -/
theorem readWhole_append {whole : List Char} (h : IsWhole whole) (hrest : EndsDigits rest) :
    readWhole (whole ++ rest) = .ok (whole, rest) := by
  cases h with
  -- Behind a zero another digit would be a fault.
  | zero =>
    cases rest with
    | nil => rfl
    | cons c rest =>
      have hc : isDigit c = false := hrest c rfl
      simp [readWhole, hc]
  | @digits first more hfirst hzero hmore =>
    obtain ⟨hleading, hafter⟩ := leadingDigits_append hmore hrest
    simp [readWhole, hfirst, hleading, hafter]

/-- A fraction is read if there is one, and no other way if there is none. -/
theorem readFraction_append {fraction : Option (List Char)}
    (h : ∀ digits ∈ fraction, AreDigits digits) (hdigit : EndsDigits rest)
    (hpoint : ∀ c ∈ rest.head?, c ≠ '.') :
    readFraction (fractionSpelling fraction ++ rest) = .ok (fraction, rest) := by
  cases fraction with
  | none =>
    rw [fractionSpelling, List.nil_append, readFraction]
    intro more heq
    subst heq
    -- What follows must not be taken for a point.
    exact hpoint '.' rfl rfl
  | some digits =>
    have hdigits := h digits rfl
    obtain ⟨hleading, hafter⟩ := leadingDigits_append hdigits.isDigit_of_mem hdigit
    rw [fractionSpelling, List.cons_append, readFraction, hleading, hafter]
    split
    · exact absurd rfl hdigits.ne_nil
    · rfl

/-- A sign is taken if there is one, since no digit is a sign. -/
theorem takeSign_append {sign : Option Char} (hsign : ∀ c ∈ sign, c = '+' ∨ c = '-')
    {digits : List Char} (hdigits : AreDigits digits) (rest : List Char) :
    takeSign (sign.toList ++ (digits ++ rest)) = (sign, digits ++ rest) := by
  cases sign with
  | some c => rcases hsign c rfl with rfl | rfl <;> rfl
  | none =>
    cases digits with
    | nil => exact absurd rfl hdigits.ne_nil
    | cons first more =>
      -- Without a sign a digit comes first, and no digit is one.
      have hfirst := hdigits.isDigit_of_mem first List.mem_cons_self
      have hplus : first ≠ '+' := by
        rintro rfl
        exact absurd hfirst (by decide)
      have hminus : first ≠ '-' := by
        rintro rfl
        exact absurd hfirst (by decide)
      simp [takeSign, hplus, hminus]

/-- The digits of an exponent are read up to their end. -/
theorem readExponentDigits_append (mark : Char) (sign : Option Char) {digits : List Char}
    (h : AreDigits digits) (hdigit : EndsDigits rest) :
    readExponentDigits mark sign (digits ++ rest) = .ok (some ⟨mark, sign, digits⟩, rest) := by
  cases digits with
  | nil => exact absurd rfl h.ne_nil
  | cons first more =>
    have hfirst := h.isDigit_of_mem first List.mem_cons_self
    obtain ⟨hleading, hafter⟩ :=
      leadingDigits_append (fun c hmem => h.isDigit_of_mem c (List.mem_cons_of_mem _ hmem)) hdigit
    rw [List.cons_append, readExponentDigits, if_pos hfirst, hleading, hafter]

/-- An exponent is read if there is one. -/
theorem readExponent_append {exponent : Option Exponent} (h : ∀ e ∈ exponent, e.IsSpelt)
    (hdigit : EndsDigits rest) (hmark : ∀ c ∈ rest.head?, c ≠ 'e' ∧ c ≠ 'E') :
    readExponent (exponentSpelling exponent ++ rest) = .ok (exponent, rest) := by
  cases exponent with
  -- What follows does not start with a mark.
  | none =>
    rw [exponentSpelling, List.nil_append]
    cases rest with
    | nil => rfl
    | cons c rest =>
      obtain ⟨hsmall, hlarge⟩ := hmark c rfl
      rw [readExponent, if_neg (not_or.2 ⟨hsmall, hlarge⟩)]
  | some exponent =>
    obtain ⟨mark, sign, digits⟩ := exponent
    obtain ⟨hmark, hsign, hdigits⟩ := h _ rfl
    rw [exponentSpelling, Exponent.spelling, List.cons_append, List.append_assoc, readExponent,
      if_pos hmark, takeSign_append hsign hdigits]
    exact readExponentDigits_append mark sign hdigits hdigit

/-- Behind the digits before the point neither a point nor an exponent goes on with them. -/
theorem endsDigits_fractionSpelling (fraction : Option (List Char)) {exponent : Option Exponent}
    (h : ∀ e ∈ exponent, e.IsSpelt) (hrest : EndsDigits rest) :
    EndsDigits (exponentSpelling exponent ++ rest) ∧
      EndsDigits (fractionSpelling fraction ++ (exponentSpelling exponent ++ rest)) := by
  have hexponent : EndsDigits (exponentSpelling exponent ++ rest) := by
    cases exponent with
    | none => exact hrest
    | some exponent =>
      rintro c hc
      -- The letter of the exponent ends the digits before it.
      obtain rfl : exponent.mark = c := Option.some.inj hc
      rcases (h exponent rfl).mark with hmark | hmark <;> rw [hmark] <;> decide
  refine ⟨hexponent, ?_⟩
  cases fraction with
  | none => exact hexponent
  | some digits =>
    rintro c hc
    obtain rfl : '.' = c := Option.some.inj hc
    decide

/-- Where an exponent may stand there is no point. -/
theorem point_exponentSpelling {exponent : Option Exponent} (h : ∀ e ∈ exponent, e.IsSpelt)
    (hrest : ∀ c ∈ rest.head?, c ≠ '.') :
    ∀ c ∈ (exponentSpelling exponent ++ rest).head?, c ≠ '.' := by
  cases exponent with
  | none => exact hrest
  | some exponent =>
    rintro c hc
    obtain rfl : exponent.mark = c := Option.some.inj hc
    rcases (h exponent rfl).mark with hmark | hmark <;> rw [hmark] <;> decide

/-- Behind its sign a number is read part by part. -/
theorem readUnsigned_append {number : Number} (h : number.IsSpelt) (hrest : EndsNumber rest) :
    readUnsigned number.negative (number.whole ++
        (fractionSpelling number.fraction ++ (exponentSpelling number.exponent ++ rest))) =
      .ok (number, rest) := by
  obtain ⟨hexponent, hfraction⟩ :=
    endsDigits_fractionSpelling number.fraction h.exponent hrest.digit
  rw [readUnsigned, readWhole_append h.whole hfraction]
  simp only [readFraction_append h.fraction hexponent
    (point_exponentSpelling h.exponent hrest.point),
    readExponent_append h.exponent hrest.digit hrest.mark]

/-- **A number is read as it is spelt**, unless what follows goes on with it. -/
theorem IsSpelt.read_append {number : Number} (h : number.IsSpelt) (hrest : EndsNumber rest) :
    read (number.spelling ++ rest) = .ok (number, rest) := by
  have hunsigned := readUnsigned_append h hrest
  rw [spelling_eq, List.append_assoc, List.append_assoc, List.append_assoc]
  cases hnegative : number.negative with
  | true =>
    rw [hnegative] at hunsigned
    exact hunsigned
  | false =>
    rw [hnegative] at hunsigned
    -- Before the point there is a digit, so there is no sign in front.
    obtain ⟨first, more, hwhole, hfirst⟩ := h.whole.exists_cons
    rw [hwhole] at hunsigned ⊢
    refine Eq.trans ?_ hunsigned
    show read (first :: _) = readUnsigned false (first :: _)
    rw [read]
    rintro rest' heq
    obtain ⟨rfl, -⟩ := List.cons.inj heq
    exact absurd hfirst (by decide)

end Complete

section Sound

variable {text rest : List Char}

/-- What was read before the point may stand there. -/
theorem isWhole_of_readWhole {whole : List Char} (h : readWhole text = .ok (whole, rest)) :
    IsWhole whole ∧ text = whole ++ rest := by
  unfold readWhole at h
  split at h
  next => cases h
  next =>
    split at h
    next =>
      split at h
      next => cases h
      next =>
        obtain ⟨rfl, rfl⟩ := Prod.mk.inj (Except.ok.inj h)
        exact ⟨.zero, rfl⟩
    next =>
      obtain ⟨rfl, rfl⟩ := Prod.mk.inj (Except.ok.inj h)
      exact ⟨.zero, rfl⟩
  next first more hzero =>
    split at h
    next hfirst =>
      obtain ⟨rfl, rfl⟩ := Prod.mk.inj (Except.ok.inj h)
      -- A zero was dealt with above.
      have hne : first ≠ '0' := by
        rintro rfl
        exact hzero rfl
      refine ⟨.digits hfirst hne fun c => isDigit_of_mem_leadingDigits, ?_⟩
      rw [List.cons_append, leadingDigits_append_afterDigits]
    next => cases h

/-- A fraction that was read has digits. -/
theorem areDigits_of_readFraction {fraction : Option (List Char)}
    (h : readFraction text = .ok (fraction, rest)) :
    (∀ digits ∈ fraction, AreDigits digits) ∧ text = fractionSpelling fraction ++ rest := by
  unfold readFraction at h
  split at h
  next more =>
    split at h
    next => split at h <;> cases h
    -- The point is followed by all the digits that there are, at least one.
    next hne =>
      obtain ⟨rfl, rfl⟩ := Prod.mk.inj (Except.ok.inj h)
      refine ⟨fun digits hmem => ?_, ?_⟩
      · obtain rfl := Option.some.inj hmem
        exact ⟨hne, fun c => isDigit_of_mem_leadingDigits⟩
      · rw [fractionSpelling, List.cons_append, leadingDigits_append_afterDigits]
  next =>
    obtain ⟨rfl, rfl⟩ := Prod.mk.inj (Except.ok.inj h)
    exact ⟨fun digits hmem => (nomatch hmem), rfl⟩

/-- What was taken as a sign is one, and nothing else was taken. -/
theorem takeSign_eq (text : List Char) :
    (∀ c ∈ (takeSign text).1, c = '+' ∨ c = '-') ∧
      text = (takeSign text).1.toList ++ (takeSign text).2 := by
  unfold takeSign
  split
  · exact ⟨fun c hc => .inl (Option.some.inj hc).symm, rfl⟩
  · exact ⟨fun c hc => .inr (Option.some.inj hc).symm, rfl⟩
  · exact ⟨fun c hc => (nomatch hc), rfl⟩

/-- An exponent that was read is spelt as the grammar allows. -/
theorem isSpelt_of_readExponent {exponent : Option Exponent}
    (h : readExponent text = .ok (exponent, rest)) :
    (∀ e ∈ exponent, e.IsSpelt) ∧ text = exponentSpelling exponent ++ rest := by
  unfold readExponent at h
  split at h
  next mark more =>
    split at h
    next hmark =>
      -- The digits are behind the sign, if there is one.
      obtain ⟨hsign, hmore⟩ := takeSign_eq more
      unfold readExponentDigits at h
      split at h
      next => cases h
      next first digits hdigits =>
        split at h
        next hfirst =>
          obtain ⟨rfl, rfl⟩ := Prod.mk.inj (Except.ok.inj h)
          refine ⟨fun e he => ?_, ?_⟩
          · obtain rfl := Option.some.inj he
            refine ⟨hmark, hsign, List.cons_ne_nil _ _, fun c hc => ?_⟩
            rcases List.mem_cons.1 hc with rfl | hc
            · exact hfirst
            · exact isDigit_of_mem_leadingDigits hc
          · rw [exponentSpelling, Exponent.spelling, List.cons_append, List.append_assoc,
              List.cons_append, leadingDigits_append_afterDigits, ← hdigits, ← hmore]
        next => cases h
    next =>
      obtain ⟨rfl, rfl⟩ := Prod.mk.inj (Except.ok.inj h)
      exact ⟨fun e he => (nomatch he), rfl⟩
  next =>
    obtain ⟨rfl, rfl⟩ := Prod.mk.inj (Except.ok.inj h)
    exact ⟨fun e he => (nomatch he), rfl⟩

/-- So is a number behind its sign. -/
theorem isSpelt_of_readUnsigned {negative : Bool} {number : Number}
    (h : readUnsigned negative text = .ok (number, rest)) :
    number.negative = negative ∧ number.IsSpelt ∧
      text = number.whole ++ (fractionSpelling number.fraction ++
        (exponentSpelling number.exponent ++ rest)) := by
  unfold readUnsigned at h
  split at h
  next => cases h
  next whole behindWhole hwhole =>
    split at h
    next => cases h
    next fraction behindFraction hfraction =>
      split at h
      next => cases h
      next exponent behind hexponent =>
        obtain ⟨rfl, rfl⟩ := Prod.mk.inj (Except.ok.inj h)
        -- Each part has left the text that the next one was read from.
        obtain ⟨hiswhole, rfl⟩ := isWhole_of_readWhole hwhole
        obtain ⟨hdigits, rfl⟩ := areDigits_of_readFraction hfraction
        obtain ⟨hspelt, rfl⟩ := isSpelt_of_readExponent hexponent
        exact ⟨rfl, ⟨hiswhole, hdigits, hspelt⟩, rfl⟩

/-- **What is read as a number was spelt so.** -/
theorem isSpelt_of_read {number : Number} (h : read text = .ok (number, rest)) :
    number.IsSpelt ∧ text = number.spelling ++ rest := by
  rw [spelling_eq, List.append_assoc, List.append_assoc, List.append_assoc]
  unfold read at h
  split at h
  next more =>
    obtain ⟨hnegative, hspelt, rfl⟩ := isSpelt_of_readUnsigned h
    exact ⟨hspelt, by rw [hnegative]; rfl⟩
  next =>
    obtain ⟨hnegative, hspelt, rfl⟩ := isSpelt_of_readUnsigned h
    exact ⟨hspelt, by rw [hnegative]; rfl⟩

end Sound

end Number

end Lineage.Json
