import Lineage.Proofs.Payloads
import Lineage.Proofs.Rendering

/-!
# Which objects are payloads

A payload asks something of the members with the keys of its attributes: a required attribute is
told exactly once, by a string, a number or a boolean, and an optional one at most once, also by
`null` (`Attribute.IsTold`). Other members are not asked about. But the whole object is read first,
as a value, and so every member has to be within the limits of the reader, whatever its key. This is
what it takes to be accepted, and an object past the limits is refused as if it were no JSON
(`Payload.accepts_read`).

So attributes alone do not decide: an object that tells every attribute is refused if there is a
number out of range in it, be it that of an attribute or of another member, or if another member is
nested too deep (`Payload.accepts_read_limits`).
-/

namespace Lineage

open Lineage.Json

namespace Json

/-- Whether a value is a string, a number or a boolean. -/
def Value.IsScalar : Value → Prop
  | .text _ | .number _ | .bool _ => True
  | .null | .array _ | .object _ => False

/-- What the members of an object say under a key. -/
def valuesOf (entries : List Entry) (key : String) : List Value :=
  (entries.filter (·.key = key)).map (·.value)

theorem mem_valuesOf {entries : List Entry} {key : String} {value : Value} :
    value ∈ valuesOf entries key ↔ ∃ entry ∈ entries, entry.key = key ∧ entry.value = value := by
  simp [valuesOf, and_assoc]

/-- There are as many values under a key as members with the key. -/
theorem length_valuesOf (entries : List Entry) (key : String) :
    (valuesOf entries key).length = (entries.map (·.key)).count key := by
  rw [valuesOf, List.length_map, List.count_eq_length_filter, List.filter_map, List.length_map]
  rfl

/-- Arrays in each other, with nothing in the innermost. -/
def Value.nested : Nat → Value
  | 0 => .array []
  | depth + 1 => .array [nested depth]

/-- No number is in nested arrays that could be misspelt. -/
theorem Value.isSpelt_nested (depth : Nat) : (nested depth).IsSpelt := by
  induction depth with
  | zero => exact .array nofun
  | succ depth ih => exact .array (List.forall_mem_singleton.2 ih)

/-- As many arrays have to be allowed as there are. -/
theorem Value.lt_of_fits_nested {budget depth : Nat} (h : (nested depth).Fits budget) :
    depth < budget := by
  induction depth generalizing budget with
  | zero =>
    cases h with
    | array h => exact Nat.succ_pos _
  -- The innermost array is one deeper, and one less is allowed for it.
  | succ depth ih =>
    cases h with
    | array h => exact Nat.succ_lt_succ (ih (h _ List.mem_cons_self))

/-- The range is all that a number can miss, wherever it stands. -/
theorem Value.fits_number_iff {budget : Nat} {number : Number} :
    (Value.number number).Fits budget ↔ number.toDouble?.isSome = true := by
  constructor
  · intro h
    cases h with
    | number hrange => exact hrange
  · exact .number

/-- A one with four hundred zeros, which is out of range. -/
def Number.large : Number :=
  ⟨false, ['1'], none, some ⟨'e', none, ['4', '0', '0']⟩⟩

/-- The large number is spelt as numbers are, so it is no fault of the text that it is refused. -/
theorem Number.isSpelt_large : large.IsSpelt where
  whole := .digits (by decide) (by decide) nofun
  fraction := nofun
  exponent := by
    intro exponent hexponent
    obtain rfl := Option.some.inj hexponent
    exact ⟨.inl rfl, nofun, by decide, List.all_eq_true.1 (by decide)⟩

end Json

namespace Telemetry

/-- Whether the members of an object tell an attribute: a required one exactly once and by a scalar,
an optional one at most once and by a scalar or by `null`. -/
def Attribute.IsTold (wanted : Attribute) (entries : List Entry) : Prop :=
  match wanted.standIn with
  | none => ∃ value : Value, valuesOf entries wanted.key = [value] ∧ value.IsScalar
  | some _ => valuesOf entries wanted.key = [] ∨
      ∃ value : Value, valuesOf entries wanted.key = [value] ∧ (value.IsScalar ∨ value = .null)

section IsTold

variable {wanted : Attribute} {entries : List Entry}

/-- A scalar is taken for any attribute, and `null` only where something stands in for it. -/
theorem Attribute.takes_iff {value : Value} :
    wanted.Takes value ↔ value.IsScalar ∨ (value = .null ∧ wanted.standIn.isSome = true) := by
  cases value with
  | bool b => cases b <;> simp [Attribute.Takes, Scalar.ofValue, Value.IsScalar]
  | _ => simp [Attribute.Takes, Scalar.ofValue, Value.IsScalar]

/-- To be told is to be taken once, or not at all if something stands in. -/
theorem Attribute.isTold_iff : wanted.IsTold entries ↔
    (valuesOf entries wanted.key).length ≤ 1 ∧
      (∀ value ∈ valuesOf entries wanted.key, wanted.Takes value) ∧
      (wanted.standIn = none → valuesOf entries wanted.key ≠ []) := by
  -- There are no values, or one, or more than one.
  rw [IsTold]
  rcases valuesOf entries wanted.key with _ | ⟨value, _ | ⟨other, more⟩⟩
  · cases wanted.standIn <;> simp
  · cases hstandIn : wanted.standIn <;> simp [takes_iff, hstandIn]
  · cases wanted.standIn <;> simp

/-- **The attributes of a payload are told** if and only if its members make one. -/
theorem Payload.admits_iff_isTold {form : PayloadForm} :
    Admits form entries ↔ ∀ wanted ∈ form.attributes, wanted.IsTold entries := by
  simp only [Attribute.isTold_iff, length_valuesOf]
  constructor
  · rintro ⟨honce, htakes, hpresent⟩ wanted hwanted
    refine ⟨honce wanted hwanted, fun value hvalue => ?_, fun hrequired hnone => ?_⟩
    · -- What is under the key was said by a member, and a member has to be taken.
      obtain ⟨entry, hentry, hkey, rfl⟩ := mem_valuesOf.1 hvalue
      exact htakes entry hentry wanted hwanted hkey.symm
    · obtain ⟨entry, hentry, hkey⟩ := hpresent wanted hwanted hrequired
      exact List.not_mem_nil (hnone ▸ mem_valuesOf.2 ⟨entry, hentry, hkey, rfl⟩)
  · intro htold
    refine ⟨fun wanted hwanted => (htold wanted hwanted).1,
      fun entry hentry wanted hwanted hkey => ?_, fun wanted hwanted hrequired => ?_⟩
    · exact (htold wanted hwanted).2.1 _ (mem_valuesOf.2 ⟨entry, hentry, hkey.symm, rfl⟩)
    · -- An attribute that is required has a value, and some member says it.
      obtain ⟨value, hvalue⟩ := List.exists_mem_of_ne_nil _ ((htold wanted hwanted).2.2 hrequired)
      obtain ⟨entry, hentry, hkey, -⟩ := mem_valuesOf.1 hvalue
      exact ⟨entry, hentry, hkey⟩

end IsTold

namespace Payload

/-- **What it takes to be accepted**: every attribute of the kind is told, every member of the
object, those with other keys included, is within the limits of the reader, and what is embedded in
the object leaves it one. If a member is past the limits, or what is embedded cannot be read, the
text is refused as no JSON, whatever the attributes are told. -/
theorem accepts_read (kind : EntityKind) {raw : String} {entries : List Entry}
    (h : IsObject raw.toList entries) :
    ((∃ payload, read kind.form raw = .ok payload) ↔
      (∀ wanted ∈ kind.form.attributes, wanted.IsTold entries) ∧
        (∀ entry ∈ entries, entry.value.Fits (depthLimit - 1)) ∧
        ∃ members, (Value.ofEntries entries).StandsFor (.object members)) ∧
    ((∃ entry ∈ entries, ¬ entry.value.Fits (depthLimit - 1)) ∨
        (∀ value, ¬ (Value.ofEntries entries).StandsFor value) →
      ∃ reason place, read kind.form raw = .error (.notJson reason place)) := by
  rw [← admits_iff_isTold]
  refine ⟨⟨?_, ?_⟩, ?_⟩
  · rintro ⟨payload, hread⟩
    obtain ⟨⟨hfits, hobject⟩, hadmits, -⟩ := (read_eq_ok_iff h).1 hread
    exact ⟨hadmits, hfits, hobject⟩
  · rintro ⟨hadmits, hfits, hobject⟩
    exact ⟨_, (read_eq_ok_iff h).2 ⟨⟨hfits, hobject⟩, hadmits, rfl⟩⟩
  · -- The value that is read first fails, so no attribute is looked at.
    intro hunread
    cases hparse : parse raw.toList with
    | error fault => exact ⟨_, _, by rw [read, hparse]; rfl⟩
    | ok value =>
      obtain ⟨hfits, hstands⟩ := h.parse_eq_ok_iff.1 hparse
      rcases hunread with ⟨entry, hentry, hunfit⟩ | hnone
      · exact absurd (hfits entry hentry) hunfit
      · exact absurd hstands (hnone value)

/-- What a device may say of a register cell, with a member besides. -/
def cellWith (value width : Value) : List (String × Value) :=
  [("index", .ofNat 0), ("value", value), ("width", width)]

section Cell

variable {value width : Value}

/-- The object is one whatever the value and the member besides are, as long as they are spelt
well. -/
theorem isObject_cellWith (hvalue : value.IsSpelt) (hwidth : width.IsSpelt) :
    IsObject (Value.object (cellWith value width)).compact.toList
      ((cellWith value width).map Value.entry) := by
  refine Value.isObject_compact ?_
  simp only [cellWith, List.forall_mem_cons]
  exact ⟨Value.isSpelt_ofNat 0, hvalue, hwidth, nofun⟩

/-- The member besides does not matter for the attributes. -/
theorem isTold_cellWith (h : value.IsScalar) :
    ∀ wanted ∈ EntityKind.register.form.attributes,
      wanted.IsTold ((cellWith value width).map Value.entry) := by
  show ∀ wanted ∈ [(⟨"index", none⟩ : Attribute), ⟨"value", none⟩], _
  simp only [List.forall_mem_cons]
  exact ⟨⟨.ofNat 0, rfl, trivial⟩, ⟨value, rfl, h⟩, nofun⟩

end Cell

/-- A member with another key is passed over. -/
theorem accepts_read_register :
    let members := cellWith (.ofNat 42) (.ofNat 32)
    IsObject (Value.object members).compact.toList (members.map Value.entry) ∧
      ∃ payload, read EntityKind.register.form (Value.object members).compact = .ok payload := by
  intro members
  have hobject : IsObject _ (members.map Value.entry) :=
    isObject_cellWith (Value.isSpelt_ofNat 42) (Value.isSpelt_ofNat 32)
  -- Nothing in the object is embedded, since its first key is another one and all its values are
  -- leaves.
  have hreadable : AreReadable (members.map Value.entry) := by
    have hnat (n : Nat) (hn : n < 2 ^ 64) :
        (Value.ofNat n).Fits (depthLimit - 1) ∧ (Value.ofNat n).IsLeaf :=
      ⟨.number (Number.isSome_toDouble?_ofNat hn), trivial⟩
    refine areReadable_of_isLeaf (fun first hfirst => ?_) ?_
    · obtain rfl := Option.some.inj hfirst
      exact show "index" ≠ embeddedKey by decide
    · simp only [members, cellWith, List.map_cons, List.forall_mem_cons]
      exact ⟨hnat 0 (by decide), hnat 42 (by decide), hnat 32 (by decide), nofun⟩
  exact ⟨hobject, (accepts_read .register hobject).1.2
    ⟨isTold_cellWith trivial, hreadable.fits, hreadable.object⟩⟩

/-- Objects that tell both attributes of a register cell and are refused: the first has a number
that is out of range besides, the second has it for a value, and the third has a member that is
nested too deep. -/
theorem accepts_read_limits :
    let large : Value := .number Number.large
    (Value.object (cellWith (.ofNat 1) large)).compact =
      "\x7b\"index\":0,\"value\":1,\"width\":1e400\x7d" ∧
      ∀ members ∈ [cellWith (.ofNat 1) large, cellWith large .null,
        cellWith (.ofNat 1) (.nested (depthLimit - 1))],
        (∃ entries, IsObject (Value.object members).compact.toList entries ∧
          ∀ wanted ∈ EntityKind.register.form.attributes, wanted.IsTold entries) ∧
        ∀ payload, read EntityKind.register.form (Value.object members).compact ≠ .ok payload := by
  intro large
  have hlarge : large.IsSpelt := .number Number.isSpelt_large
  have hrange : ¬ large.Fits (depthLimit - 1) := mt Value.fits_number_iff.1 (by decide +kernel)
  have hdeep : ¬ (Value.nested (depthLimit - 1)).Fits (depthLimit - 1) :=
    fun hfits => Nat.lt_irrefl _ (Value.lt_of_fits_nested hfits)
  -- In each of the objects one of the members is past the limits.
  have hrefused {value width : Value} (hvalue : value.IsSpelt) (hwidth : width.IsSpelt)
      (hscalar : value.IsScalar)
      (hunfit : ¬ (value.Fits (depthLimit - 1) ∧ width.Fits (depthLimit - 1))) :
      (∃ entries, IsObject (Value.object (cellWith value width)).compact.toList entries ∧
        ∀ wanted ∈ EntityKind.register.form.attributes, wanted.IsTold entries) ∧
      ∀ payload, read EntityKind.register.form (Value.object (cellWith value width)).compact ≠
        .ok payload := by
    have hobject := isObject_cellWith hvalue hwidth
    refine ⟨⟨_, hobject, isTold_cellWith hscalar⟩, fun payload hread => hunfit ?_⟩
    -- Were the object read, both members would fit.
    obtain ⟨⟨hfits, -⟩, -⟩ := (read_eq_ok_iff hobject).1 hread
    simp only [cellWith, List.map_cons, List.forall_mem_cons] at hfits
    exact ⟨hfits.2.1, hfits.2.2.1⟩
  refine ⟨by decide +kernel, ?_⟩
  simp only [List.forall_mem_cons]
  exact ⟨hrefused (Value.isSpelt_ofNat 1) hlarge trivial fun h => hrange h.2,
    hrefused hlarge .null trivial fun h => hrange h.1,
    hrefused (Value.isSpelt_ofNat 1) (Value.isSpelt_nested _) trivial fun h => hdeep h.2, nofun⟩

end Payload

end Telemetry

end Lineage
