import Lineage.Proofs.Utf8

/-!
# Texts are ordered as their bytes

Texts are compared character by character, and byte strings byte by byte. UTF-8 keeps the order: of
two different characters the smaller one has a spelling that is smaller at some byte, before either
spelling ends (`Spells.append_lt_append`), so whatever follows the two makes no difference. If one
spelling is longer than the other then they differ in the lead already, which grows with the length
(`Spells.exists_lead`). Hence sorting texts is sorting the bytes that are written for them
(`encode_lt_encode`).
-/

namespace Lineage.Text.Utf8

section Spellings

variable {front front' : List UInt8} {char char' : Char}

/-- The lead of a spelling and the number of its character are larger the longer the spelling is. -/
theorem Spells.exists_lead (h : Spells front char) : ∃ lead rest, front = lead :: rest ∧
    (rest.length = 0 ∧ lead.toNat < 0x80 ∧ char.toNat < 0x80 ∨
      rest.length = 1 ∧ 0xC2 ≤ lead.toNat ∧ lead.toNat < 0xE0 ∧ 0x80 ≤ char.toNat ∧
        char.toNat < 0x800 ∨
      rest.length = 2 ∧ 0xE0 ≤ lead.toNat ∧ lead.toNat < 0xF0 ∧ 0x800 ≤ char.toNat ∧
        char.toNat < 0x10000 ∨
      rest.length = 3 ∧ 0xF0 ≤ lead.toNat ∧ 0x10000 ≤ char.toNat) := by
  -- The lead and the bits behind it bound the number from both sides.
  cases h with
  | one ha hcode =>
    rw [Lead.ofByte_eq_one_iff] at ha
    exact ⟨_, _, rfl, .inl ⟨rfl, ha, hcode ▸ ha⟩⟩
  | two ha hb hcode =>
    rw [Lead.ofByte_eq_two_iff] at ha
    rw [low6] at hcode
    exact ⟨_, _, rfl, .inr (.inl ⟨rfl, by omega⟩)⟩
  | three hab hc hcode =>
    rw [Lead.exists_three_iff] at hab
    rw [low6, low6] at hcode
    exact ⟨_, _, rfl, .inr (.inr (.inl ⟨rfl, by omega⟩))⟩
  | four hab hc hd hcode =>
    rw [Lead.exists_four_iff] at hab
    rw [low6, low6, low6] at hcode
    exact ⟨_, _, rfl, .inr (.inr (.inr ⟨rfl, by omega⟩))⟩

/-- Of two spellings with one length, the bytes are the digits of the two numbers. -/
theorem Spells.append_lt_append_of_length_eq (h : Spells front char) (h' : Spells front' char')
    (hlength : front.length = front'.length) (hlt : char.toNat < char'.toNat)
    (back back' : List UInt8) : front ++ back < front' ++ back' := by
  -- Spellings of different kinds have different lengths.
  cases h <;> cases h' <;> simp at hlength
  case one.one ha hcode _ ha' hcode' =>
    rw [hcode, hcode'] at hlt
    exact .rel (UInt8.lt_iff_toNat_lt.2 hlt)
  case two.two ha hb hcode _ _ ha' hb' hcode' =>
    rw [Lead.ofByte_eq_two_iff] at ha ha'
    rw [isContinuation_iff] at hb hb'
    rw [low6] at hcode hcode'
    simp only [List.cons_append, List.cons_lt_cons_iff, UInt8.lt_iff_toNat_lt, ← UInt8.toNat_inj]
    omega
  case three.three hab hc hcode _ _ _ hab' hc' hcode' =>
    rw [Lead.exists_three_iff] at hab hab'
    rw [isContinuation_iff] at hc hc'
    rw [low6, low6] at hcode hcode'
    simp only [List.cons_append, List.cons_lt_cons_iff, UInt8.lt_iff_toNat_lt, ← UInt8.toNat_inj]
    omega
  case four.four hab hc hd hcode _ _ _ _ hab' hc' hd' hcode' =>
    rw [Lead.exists_four_iff] at hab hab'
    rw [isContinuation_iff] at hc hd hc' hd'
    rw [low6, low6, low6] at hcode hcode'
    simp only [List.cons_append, List.cons_lt_cons_iff, UInt8.lt_iff_toNat_lt, ← UInt8.toNat_inj]
    omega

/-- The spellings of two characters are ordered as the characters are, whatever stands behind
them. -/
theorem Spells.append_lt_append (h : Spells front char) (h' : Spells front' char')
    (hlt : char < char') (back back' : List UInt8) : front ++ back < front' ++ back' := by
  have hcodes : char.toNat < char'.toNat := hlt
  by_cases hlength : front.length = front'.length
  · exact h.append_lt_append_of_length_eq h' hlength hcodes back back'
  · -- With different lengths the leads differ, and they grow with the length as the characters do.
    obtain ⟨lead, rest, rfl, hlead⟩ := h.exists_lead
    obtain ⟨lead', rest', rfl, hlead'⟩ := h'.exists_lead
    rw [List.length_cons, List.length_cons] at hlength
    exact .rel (UInt8.lt_iff_toNat_lt.2 (by omega))

end Spellings

/-- The same of rows of characters: the first two that differ decide, on either side. -/
theorem flatMap_utf8EncodeChar_lt {chars chars' : List Char} (h : chars < chars') :
    chars.flatMap String.utf8EncodeChar < chars'.flatMap String.utf8EncodeChar := by
  induction h with
  | @nil char chars =>
    -- No spelling is empty.
    obtain ⟨byte, bytes, hbytes⟩ := List.exists_cons_of_ne_nil (utf8EncodeChar_ne_nil char)
    rw [List.flatMap_nil, List.flatMap_cons, hbytes]
    exact .nil
  | cons _ ih => exact List.append_left_lt ih
  | rel hlt => exact (spells_utf8EncodeChar _).append_lt_append (spells_utf8EncodeChar _) hlt _ _

/-- **UTF-8 keeps the order of texts.** -/
theorem encode_lt_encode {text text' : String} (h : text < text') : encode text < encode text' :=
  flatMap_utf8EncodeChar_lt h

end Lineage.Text.Utf8
