import Lineage.Text.Utf8

/-!
# What decodes as UTF-8

Decoding asks of every sequence just what encoding writes, so a byte string decodes to a text if and
only if it is the encoding of that text (`decode_eq_ok_iff`). The characters are looked at one at a
time: `Spells` says which bytes spell which character in terms of the lead byte and the bits that
the bytes carry, the encoding of a character is the only spelling of it, and decoding goes from
spelling to spelling.

The core library has a predicate for the byte strings that are UTF-8, and `isValidUTF8_iff` says
that these are the ones that decode.
-/

namespace Lineage.Text.Utf8

/-! ### Bytes as numbers -/

namespace Lead

variable {a b low high : UInt8}

/-- A byte of ASCII stands alone. -/
theorem ofByte_eq_one_iff : ofByte a = .one ↔ a.toNat < 0x80 := by
  simp only [ofByte, UInt8.lt_iff_toNat_lt, beq_iff_eq, ← UInt8.toNat_inj, UInt8.reduceToNat]
  grind

/-- `C0` and `C1` lead nothing: they would spell ASCII in two bytes. -/
theorem ofByte_eq_two_iff : ofByte a = .two ↔ 0xC2 ≤ a.toNat ∧ a.toNat < 0xE0 := by
  simp only [ofByte, UInt8.lt_iff_toNat_lt, beq_iff_eq, ← UInt8.toNat_inj, UInt8.reduceToNat]
  grind

/-- Behind `E0` what two bytes can spell is left out, behind `ED` the surrogates. -/
theorem ofByte_eq_three_iff : ofByte a = .three low high ↔ 0xE0 ≤ a.toNat ∧ a.toNat < 0xF0 ∧
    low = (if a.toNat = 0xE0 then 0xA0 else 0x80) ∧
    high = if a.toNat = 0xED then 0x9F else 0xBF := by
  simp only [ofByte, UInt8.lt_iff_toNat_lt, beq_iff_eq, ← UInt8.toNat_inj (a := a),
    UInt8.reduceToNat]
  grind

/-- Behind `F0` what three bytes can spell is left out, behind `F4` what is past the last code
point; nothing above `F4` leads. -/
theorem ofByte_eq_four_iff : ofByte a = .four low high ↔ 0xF0 ≤ a.toNat ∧ a.toNat < 0xF5 ∧
    low = (if a.toNat = 0xF0 then 0x90 else 0x80) ∧
    high = if a.toNat = 0xF4 then 0x8F else 0xBF := by
  simp only [ofByte, UInt8.lt_iff_toNat_lt, beq_iff_eq, ← UInt8.toNat_inj (a := a),
    UInt8.reduceToNat]
  grind

/-- The first two bytes of three: `E0` and `ED` are followed by a part of the
continuation bytes only. -/
theorem exists_three_iff : (∃ low high, ofByte a = .three low high ∧ low ≤ b ∧ b ≤ high) ↔
    0xE0 ≤ a.toNat ∧ a.toNat < 0xF0 ∧ 0x80 ≤ b.toNat ∧ b.toNat < 0xC0 ∧
      (a.toNat = 0xE0 → 0xA0 ≤ b.toNat) ∧ (a.toNat = 0xED → b.toNat < 0xA0) := by
  -- There is one pair of bounds at most, and each of its values belongs to some leads only.
  simp only [ofByte_eq_three_iff, UInt8.le_iff_toNat_le, and_assoc, exists_and_left, exists_eq_left]
  split <;> split <;> simp only [UInt8.reduceToNat] <;> omega

/-- The first two bytes of four, where the same goes for `F0` and `F4`. -/
theorem exists_four_iff : (∃ low high, ofByte a = .four low high ∧ low ≤ b ∧ b ≤ high) ↔
    0xF0 ≤ a.toNat ∧ a.toNat < 0xF5 ∧ 0x80 ≤ b.toNat ∧ b.toNat < 0xC0 ∧
      (a.toNat = 0xF0 → 0x90 ≤ b.toNat) ∧ (a.toNat = 0xF4 → b.toNat < 0x90) := by
  simp only [ofByte_eq_four_iff, UInt8.le_iff_toNat_le, and_assoc, exists_and_left, exists_eq_left]
  split <;> split <;> simp only [UInt8.reduceToNat] <;> omega

end Lead

/-- The bytes that go on a sequence, as a range. -/
theorem isContinuation_iff {b : UInt8} :
    isContinuation b = true ↔ 0x80 ≤ b.toNat ∧ b.toNat < 0xC0 := by
  simp only [isContinuation, Bool.and_eq_true, decide_eq_true_eq, UInt8.le_iff_toNat_le,
    UInt8.reduceToNat]
  omega

/-! ### Characters and their bytes -/

/-- Bytes that spell a character: the lead announces what follows it, and the bits that the bytes
carry make up the number of the character. -/
inductive Spells : List UInt8 → Char → Prop
  | one {a : UInt8} {char : Char} (ha : Lead.ofByte a = .one) (hcode : char.toNat = a.toNat) :
      Spells [a] char
  | two {a b : UInt8} {char : Char} (ha : Lead.ofByte a = .two) (hb : isContinuation b = true)
      (hcode : char.toNat = a.toNat % 32 * 64 + low6 b) : Spells [a, b] char
  | three {a b c : UInt8} {char : Char}
      (hab : ∃ low high, Lead.ofByte a = .three low high ∧ low ≤ b ∧ b ≤ high)
      (hc : isContinuation c = true)
      (hcode : char.toNat = (a.toNat % 16 * 64 + low6 b) * 64 + low6 c) : Spells [a, b, c] char
  | four {a b c d : UInt8} {char : Char}
      (hab : ∃ low high, Lead.ofByte a = .four low high ∧ low ≤ b ∧ b ≤ high)
      (hc : isContinuation c = true) (hd : isContinuation d = true)
      (hcode : char.toNat = ((a.toNat % 8 * 64 + low6 b) * 64 + low6 c) * 64 + low6 d) :
      Spells [a, b, c, d] char

section Encoding

variable {char : Char}

/-- Seven bits fit into one byte. -/
theorem utf8EncodeChar_of_lt_two (h : char.toNat < 0x80) :
    String.utf8EncodeChar char = [UInt8.ofNat char.toNat] :=
  if_pos (Nat.le_of_lt_succ h)

/-- Eleven bits fit into two bytes. -/
theorem utf8EncodeChar_of_lt_three (h : 0x80 ≤ char.toNat) (h' : char.toNat < 0x800) :
    String.utf8EncodeChar char =
      [UInt8.ofNat (char.toNat / 64 % 32 + 0xC0), UInt8.ofNat (char.toNat % 64 + 0x80)] :=
  (if_neg (Nat.not_le_of_lt h)).trans (if_pos (Nat.le_of_lt_succ h'))

/-- Sixteen bits fit into three bytes. -/
theorem utf8EncodeChar_of_lt_four (h : 0x800 ≤ char.toNat) (h' : char.toNat < 0x10000) :
    String.utf8EncodeChar char = [UInt8.ofNat (char.toNat / 4096 % 16 + 0xE0),
      UInt8.ofNat (char.toNat / 64 % 64 + 0x80), UInt8.ofNat (char.toNat % 64 + 0x80)] := by
  have h1 : ¬ char.toNat ≤ 0x7F := by omega
  have h2 : ¬ char.toNat ≤ 0x7FF := by omega
  exact (if_neg h1).trans ((if_neg h2).trans (if_pos (Nat.le_of_lt_succ h')))

/-- All that is larger takes four bytes. -/
theorem utf8EncodeChar_of_le (h : 0x10000 ≤ char.toNat) :
    String.utf8EncodeChar char = [UInt8.ofNat (char.toNat / 262144 % 8 + 0xF0),
      UInt8.ofNat (char.toNat / 4096 % 64 + 0x80), UInt8.ofNat (char.toNat / 64 % 64 + 0x80),
      UInt8.ofNat (char.toNat % 64 + 0x80)] := by
  have h1 : ¬ char.toNat ≤ 0x7F := by omega
  have h2 : ¬ char.toNat ≤ 0x7FF := by omega
  have h3 : ¬ char.toNat ≤ 0xFFFF := by omega
  exact (if_neg h1).trans ((if_neg h2).trans (if_neg h3))

/-- A character has no spelling but its encoding. -/
theorem Spells.eq_utf8EncodeChar {bytes : List UInt8} (h : Spells bytes char) :
    bytes = String.utf8EncodeChar char := by
  cases h with
  | one ha hcode =>
    rw [Lead.ofByte_eq_one_iff] at ha
    rw [utf8EncodeChar_of_lt_two (by omega), hcode, UInt8.ofNat_toNat]
  | two ha hb hcode =>
    rw [Lead.ofByte_eq_two_iff] at ha
    rw [isContinuation_iff] at hb
    rw [low6] at hcode
    -- The bytes are compared as numbers, where the lead and the low bits determine them.
    rw [utf8EncodeChar_of_lt_three (by omega) (by omega)]
    simp only [List.cons.injEq, ← UInt8.toNat_inj, UInt8.toNat_ofNat', and_true]
    omega
  | three hab hc hcode =>
    rw [Lead.exists_three_iff] at hab
    rw [isContinuation_iff] at hc
    rw [low6, low6] at hcode
    rw [utf8EncodeChar_of_lt_four (by omega) (by omega)]
    simp only [List.cons.injEq, ← UInt8.toNat_inj, UInt8.toNat_ofNat', and_true]
    omega
  | four hab hc hd hcode =>
    rw [Lead.exists_four_iff] at hab
    rw [isContinuation_iff] at hc hd
    rw [low6, low6, low6] at hcode
    rw [utf8EncodeChar_of_le (by omega)]
    simp only [List.cons.injEq, ← UInt8.toNat_inj, UInt8.toNat_ofNat', and_true]
    omega

/-- The encoding of a character spells it. -/
theorem spells_utf8EncodeChar (char : Char) : Spells (String.utf8EncodeChar char) char := by
  -- Surrogates and numbers past the last code point are no characters, so no lead needs to announce
  -- them.
  have hvalid : char.toNat < 0xD800 ∨ 0xDFFF < char.toNat ∧ char.toNat < 0x110000 := char.valid
  -- The lengths of the encoding, by the size of the number.
  by_cases h2 : char.toNat < 0x80
  · rw [utf8EncodeChar_of_lt_two h2]
    refine .one (Lead.ofByte_eq_one_iff.2 ?_) ?_ <;> rw [UInt8.toNat_ofNat'] <;> omega
  by_cases h3 : char.toNat < 0x800
  · rw [utf8EncodeChar_of_lt_three (by omega) h3]
    refine .two (Lead.ofByte_eq_two_iff.2 ?_) (isContinuation_iff.2 ?_) ?_ <;>
      simp only [low6, UInt8.toNat_ofNat'] <;> omega
  by_cases h4 : char.toNat < 0x10000
  · rw [utf8EncodeChar_of_lt_four (by omega) h4]
    refine .three (Lead.exists_three_iff.2 ?_) (isContinuation_iff.2 ?_) ?_ <;>
      simp only [low6, UInt8.toNat_ofNat'] <;> omega
  · rw [utf8EncodeChar_of_le (by omega)]
    refine .four (Lead.exists_four_iff.2 ?_) (isContinuation_iff.2 ?_)
      (isContinuation_iff.2 ?_) ?_ <;>
      simp only [low6, UInt8.toNat_ofNat'] <;> omega

/-- Nothing is spelt by no bytes. -/
theorem utf8EncodeChar_ne_nil (char : Char) : String.utf8EncodeChar char ≠ [] := by
  intro hnil
  have hspells := spells_utf8EncodeChar char
  rw [hnil] at hspells
  cases hspells

/-- A byte of ASCII in a spelling is all of it: leads and the bytes that go on a sequence are
larger. -/
theorem Spells.eq_singleton_of_mem {bytes : List UInt8} (h : Spells bytes char) {b : UInt8}
    (hmem : b ∈ bytes) (hb : b.toNat < 0x80) : bytes = [b] ∧ char.toNat = b.toNat := by
  cases h with
  | one ha hcode =>
    obtain rfl := List.mem_singleton.1 hmem
    exact ⟨rfl, hcode⟩
  | two ha hc =>
    rw [Lead.ofByte_eq_two_iff] at ha
    rw [isContinuation_iff] at hc
    simp only [List.mem_cons, List.not_mem_nil, or_false] at hmem
    -- No byte of a longer sequence is below `80`.
    rcases hmem with rfl | rfl <;> omega
  | three hab hc =>
    rw [Lead.exists_three_iff] at hab
    rw [isContinuation_iff] at hc
    simp only [List.mem_cons, List.not_mem_nil, or_false] at hmem
    rcases hmem with rfl | rfl | rfl <;> omega
  | four hab hc hd =>
    rw [Lead.exists_four_iff] at hab
    rw [isContinuation_iff] at hc hd
    simp only [List.mem_cons, List.not_mem_nil, or_false] at hmem
    rcases hmem with rfl | rfl | rfl | rfl <;> omega

/-- Texts are encoded one behind the other. -/
theorem encode_append (front back : String) :
    encode (front ++ back) = encode front ++ encode back := by
  rw [encode, String.toList_append, List.flatMap_append]
  rfl

/-- A byte of ASCII in the encoding of a text stands for a character of the text. -/
theorem exists_of_mem_encode {text : String} {b : UInt8} (h : b ∈ encode text)
    (hb : b.toNat < 0x80) : ∃ char ∈ text.toList, char.toNat = b.toNat := by
  obtain ⟨char, hchar, hmem⟩ := List.mem_flatMap.1 h
  exact ⟨char, hchar, ((spells_utf8EncodeChar char).eq_singleton_of_mem hmem hb).2⟩

end Encoding

/-! ### Decoding -/

section Decoding

variable {index : Nat} {done chars : List Char} {bytes front back : List UInt8} {char : Char}

/-- The number of a character is that from which it was made, if there is one. -/
theorem toNat_ofNat_of_isValidChar {n : Nat} (h : n.isValidChar) : (Char.ofNat n).toNat = n := by
  rw [Char.ofNat, dif_pos h]
  rfl

/-- Decoding goes over a spelling at once. -/
theorem decodeFrom_append (h : Spells front char) :
    decodeFrom index done (front ++ back) =
      decodeFrom (index + front.length) (char :: done) back := by
  -- One step of decoding for each length; what the bytes carry is the number of the character.
  cases h with
  | one ha hcode =>
    rw [List.singleton_append, decodeFrom.eq_def]
    simp only [ha, ← hcode, Char.ofNat_toNat, List.length_singleton]
  | two ha hb hcode =>
    rw [List.cons_append, decodeFrom.eq_def]
    simp only [List.cons_append, ha, hb, ← hcode, Char.ofNat_toNat]
    rfl
  | three hab hc hcode =>
    obtain ⟨low, high, ha, hlow, hhigh⟩ := hab
    rw [List.cons_append, decodeFrom.eq_def]
    simp only [List.cons_append, ha, hlow, hhigh, hc, ← hcode, Char.ofNat_toNat]
    rfl
  | four hab hc hd hcode =>
    obtain ⟨low, high, ha, hlow, hhigh⟩ := hab
    rw [List.cons_append, decodeFrom.eq_def]
    simp only [List.cons_append, ha, hlow, hhigh, hc, hd, ← hcode, Char.ofNat_toNat]
    rfl

/-- What some bytes decode to, behind the characters that were there: characters whose encodings
make up the bytes. -/
def Decodes (done : List Char) (bytes : List UInt8) (chars : List Char) : Prop :=
  ∃ more, chars = done.reverse ++ more ∧ bytes = more.flatMap String.utf8EncodeChar

/-- A character in front of others, with its spelling in front of their bytes. -/
theorem Decodes.cons (hfront : Spells front char) (hback : Decodes (char :: done) back chars) :
    Decodes done (front ++ back) chars := by
  obtain ⟨more, rfl, rfl⟩ := hback
  refine ⟨char :: more, ?_, ?_⟩
  · rw [List.reverse_cons, List.append_assoc, List.singleton_append]
  · rw [List.flatMap_cons, hfront.eq_utf8EncodeChar]

/-- Decoding finds nothing but characters whose encodings are there. -/
theorem decodes_of_decodeFrom (h : decodeFrom index done bytes = .ok chars) :
    Decodes done bytes chars := by
  -- Along the calls of `decodeFrom`. Four of its cases take a character; but for the end of the
  -- input the others fail.
  fun_induction decodeFrom index done bytes <;> try contradiction
  case case1 done => exact ⟨[], by simpa using h.symm, rfl⟩
  case case2 a rest ha ih =>
    have hlead := Lead.ofByte_eq_one_iff.1 ha
    have hcode : a.toNat.isValidChar := .inl (by omega)
    exact Decodes.cons (.one ha (toNat_ofNat_of_isValidChar hcode)) (ih h)
  case case4 a ha b rest hb ih =>
    have hcode : (a.toNat % 32 * 64 + low6 b).isValidChar := by
      simp only [low6, Nat.isValidChar]
      omega
    exact Decodes.cons (.two ha hb (toNat_ofNat_of_isValidChar hcode)) (ih h)
  case case8 a low high ha b hb c rest hc ih =>
    rw [Bool.and_eq_true, decide_eq_true_eq, decide_eq_true_eq] at hb
    have hab : ∃ low high, Lead.ofByte a = .three low high ∧ low ≤ b ∧ b ≤ high :=
      ⟨low, high, ha, hb⟩
    -- The bounds on the second byte keep the surrogates out.
    have hlead := Lead.exists_three_iff.1 hab
    have hcode : ((a.toNat % 16 * 64 + low6 b) * 64 + low6 c).isValidChar := by
      simp only [low6, Nat.isValidChar]
      omega
    exact Decodes.cons (.three hab hc (toNat_ofNat_of_isValidChar hcode)) (ih h)
  case case14 a low high ha b hb c hc d rest hd ih =>
    rw [Bool.and_eq_true, decide_eq_true_eq, decide_eq_true_eq] at hb
    have hab : ∃ low high, Lead.ofByte a = .four low high ∧ low ≤ b ∧ b ≤ high :=
      ⟨low, high, ha, hb⟩
    -- And here they keep the number at or below the last code point.
    have hlead := Lead.exists_four_iff.1 hab
    have hcode : (((a.toNat % 8 * 64 + low6 b) * 64 + low6 c) * 64 + low6 d).isValidChar := by
      simp only [low6, Nat.isValidChar]
      omega
    exact Decodes.cons (.four hab hc hd (toNat_ofNat_of_isValidChar hcode)) (ih h)

/-- The encoding of characters is decoded to them. -/
theorem decodeFrom_encode (index : Nat) (done chars : List Char) :
    decodeFrom index done (chars.flatMap String.utf8EncodeChar) = .ok (done.reverse ++ chars) := by
  induction chars generalizing index done with
  | nil => rw [List.flatMap_nil, decodeFrom, List.append_nil]
  | cons char chars ih =>
    rw [List.flatMap_cons, decodeFrom_append (spells_utf8EncodeChar char), ih, List.reverse_cons,
      List.append_assoc, List.singleton_append]

end Decoding

/-- **A byte string decodes to a text if and only if it is the encoding of that text.** -/
theorem decode_eq_ok_iff {bytes : List UInt8} {text : String} :
    decode bytes = .ok text ↔ bytes = encode text := by
  constructor
  · intro h
    unfold decode at h
    cases hchars : decodeFrom 0 [] bytes with
    | error fault => exact absurd h (by simp [hchars])
    | ok chars =>
      obtain ⟨more, rfl, hbytes⟩ := decodes_of_decodeFrom hchars
      simp only [hchars, Except.ok.injEq] at h
      rw [hbytes, encode, ← h, String.toList_ofList]
  · rintro rfl
    rw [decode, encode, decodeFrom_encode]
    simp

/-- The byte strings that decode are those that are UTF-8 for the core library. -/
theorem isValidUTF8_iff {bytes : List UInt8} :
    bytes.toByteArray.IsValidUTF8 ↔ ∃ text, decode bytes = .ok text := by
  simp only [decode_eq_ok_iff, encode]
  constructor
  · rintro ⟨chars, hchars⟩
    -- The predicate of the library asks for the characters of the text.
    rw [List.utf8Encode, List.toByteArray_inj] at hchars
    exact ⟨String.ofList chars, by rw [String.toList_ofList, hchars]⟩
  · rintro ⟨text, rfl⟩
    exact ⟨text.toList, rfl⟩

end Lineage.Text.Utf8
