import Lineage.Proofs.Embedding
import Lineage.Telemetry.Payload
import Mathlib.Data.List.Nodup
import Mathlib.Data.List.Perm.Basic

/-!
# What a payload keeps of its text

A payload is read from a text if and only if the text is an object that can be read as one
(`AreReadable`) and whose members say one thing each about the attributes that are asked for
(`Payload.read_eq_ok_iff`). What an attribute is then told to be depends on the members with its key
alone (`textIn`), so neither their places nor the blanks around them nor other members matter.

The text of an attribute is what the device wrote: the token of a number or of a word, the content
of a string, and the stand-in only where there is nothing (`Tells`).
-/

namespace Lineage.Telemetry

open Json

def Scalar.content? : Scalar → Option String
  | text content => some content
  | _ => none

/-- Whether an attribute takes a value: no container, and `null` only if something stands in for
it. -/
def Attribute.Takes (wanted : Attribute) (value : Value) : Prop :=
  match Scalar.ofValue value with
  | .text _ => True
  | .null => wanted.standIn.isSome = true
  | .nested => False

namespace PayloadForm

/-- The keys that members are asked for. -/
def names (form : PayloadForm) : List String :=
  form.attributes.map Attribute.key

/-- The attributes of a form have different keys. -/
theorem nodup_names (form : PayloadForm) : form.names.Nodup := by
  cases form <;> decide

/-- What the members of an object say about the attributes of a form. -/
def told (form : PayloadForm) (entries : List Entry) : List (String × Value) :=
  (entries.filter fun entry => entry.key ∈ form.names).map fun entry => (entry.key, entry.value)

variable {form : PayloadForm} {key : String} {wanted : Attribute}

/-- A member is not looked at if its key is that of no attribute. -/
theorem lookup?_eq_none_iff : form.lookup? key = none ↔ key ∉ form.names := by
  simp only [lookup?, names, List.find?_eq_none, List.mem_map, decide_eq_true_eq, not_exists,
    not_and]

/-- A key is looked up as that of an attribute of the form. -/
theorem mem_of_lookup?_eq_some (h : form.lookup? key = some wanted) :
    wanted ∈ form.attributes ∧ wanted.key = key :=
  ⟨List.mem_of_find?_eq_some h, by simpa using List.find?_some h⟩

/-- The key of an attribute is a name of the form. -/
theorem mem_names (h : wanted ∈ form.attributes) : wanted.key ∈ form.names :=
  List.mem_map_of_mem h

/-- The keys that say something are those of the members, without the ones that are not asked
for. -/
theorem keys_told (form : PayloadForm) (entries : List Entry) :
    (form.told entries).map (·.1) = (entries.map (·.key)).filter (· ∈ form.names) := by
  rw [told, List.map_map, List.filter_map]
  rfl

/-- The key of an attribute occurs as often among them as in the whole object. -/
theorem count_told (h : wanted ∈ form.attributes) (entries : List Entry) :
    ((form.told entries).map (·.1)).count wanted.key = (entries.map (·.key)).count wanted.key := by
  rw [keys_told]
  exact List.count_filter (by simpa using mem_names h)

/-- A key is that of one attribute. -/
theorem eq_of_key_eq {other : Attribute} (hwanted : wanted ∈ form.attributes)
    (hother : other ∈ form.attributes) (h : wanted.key = other.key) : wanted = other :=
  List.inj_on_of_nodup_map form.nodup_names hwanted hother h

end PayloadForm

/-! ### Members, one after the other -/

namespace Payload

section Take

variable {form : PayloadForm} {text : List Char} {met met' : Met} {wanted : Attribute}

/-- A value is filed under its attribute if the attribute takes it. -/
theorem takeValue_eq_ok_iff {start rest : List Char} {value : Value}
    (hskip : skipValue [] start = .ok rest) (hread : readValue depthLimit start = .ok value) :
    takeValue text met wanted start = .ok met' ↔
      wanted.Takes value ∧ met' = met.insert wanted.key (Scalar.ofValue value).content? := by
  rw [takeValue, hskip, hread, Attribute.Takes]
  simp only
  cases Scalar.ofValue value with
  | text content => simp [Scalar.content?, eq_comm]
  -- What is null is taken just where something stands in.
  | null => by_cases h : wanted.standIn.isSome = true <;> simp [Scalar.content?, h, eq_comm]
  | nested => simp

variable {entry : Entry} {part : Member}

/-- A member with another key is passed over. -/
theorem takeMember_of_lookup?_none (hlookup : form.lookup? part.key = none) :
    takeMember form text met part = .ok met := by
  rw [takeMember, hlookup]

/-- A member that says something about an attribute is taken once, if the attribute takes its
value. -/
theorem takeMember_eq_ok_iff (hpart : entry.IsPart part) (hfits : entry.value.Fits depthLimit)
    (hlookup : form.lookup? entry.key = some wanted) : takeMember form text met part = .ok met' ↔
      met.contains wanted.key = false ∧ wanted.Takes entry.value ∧
        met' = met.insert wanted.key (Scalar.ofValue entry.value).content? := by
  obtain ⟨hkey, start, hstart, htoken, rest, hends, rfl⟩ := hpart
  -- The part is read up to the end of its token, whatever is behind.
  have hread := (htoken.isRead depthLimit rest entry.value (hends.endsToken _)).2 ⟨rfl, hfits⟩
  have hskip := (htoken.skipped [] rest (hends.endsToken _)).trans (skipRest_nil rest)
  rw [takeMember, hkey, hlookup, hstart]
  cases hmet : met.contains wanted.key with
  | true => simp [hmet]
  | false => simp [hmet, takeValue_eq_ok_iff hskip hread]

end Take

section TakeAll

variable {form : PayloadForm} {text : List Char}

/-- What is filed once some members have been taken. -/
def filed (form : PayloadForm) (entries : List Entry) : List (String × Option String) :=
  (form.told entries).map fun told => (told.1, (Scalar.ofValue told.2).content?)

/-- Of a member with another key nothing is filed. -/
theorem filed_cons_of_notMem {entry : Entry} (h : entry.key ∉ form.names) (entries : List Entry) :
    filed form (entry :: entries) = filed form entries := by
  rw [filed, PayloadForm.told, List.filter_cons_of_neg (by simpa using h)]
  rfl

/-- A member with the key of an attribute is filed in front of the others. -/
theorem filed_cons_of_mem {entry : Entry} (h : entry.key ∈ form.names) (entries : List Entry) :
    filed form (entry :: entries) =
      (entry.key, (Scalar.ofValue entry.value).content?) :: filed form entries := by
  rw [filed, PayloadForm.told, List.filter_cons_of_pos (by simpa using h)]
  rfl

/-- Whether some members can be taken: none says again what is known, and each attribute takes
what it is told. -/
structure Takeable (form : PayloadForm) (met : Met) (entries : List Entry) : Prop where
  once : ((filed form entries).map (·.1)).Nodup
  unmet : ∀ key ∈ (filed form entries).map (·.1), met.contains key = false
  takes : ∀ entry ∈ entries, ∀ wanted ∈ form.attributes, wanted.key = entry.key →
    wanted.Takes entry.value

variable {met met' : Met} {entry : Entry} {entries : List Entry}

/-- Where there are no members, nothing stands against taking them. -/
theorem takeable_nil : Takeable form met [] where
  once := List.nodup_nil
  unmet := fun _ h => nomatch h
  takes := fun _ h => nomatch h

/-- A member with another key does not count. -/
theorem takeable_cons_of_notMem (h : entry.key ∉ form.names) :
    Takeable form met (entry :: entries) ↔ Takeable form met entries := by
  constructor
  · rintro ⟨honce, hunmet, htakes⟩
    rw [filed_cons_of_notMem h] at honce hunmet
    exact ⟨honce, hunmet, (List.forall_mem_cons.1 htakes).2⟩
  · rintro ⟨honce, hunmet, htakes⟩
    refine ⟨?_, ?_, List.forall_mem_cons.2 ⟨?_, htakes⟩⟩
    · rwa [filed_cons_of_notMem h]
    · rwa [filed_cons_of_notMem h]
    · rintro wanted hwanted hkey
      exact absurd (hkey ▸ PayloadForm.mem_names hwanted) h

/-- A member with the key of an attribute is met by those behind it. -/
theorem takeable_cons_of_mem {wanted : Attribute} (hwanted : wanted ∈ form.attributes)
    (hkey : wanted.key = entry.key) (content : Option String) :
    Takeable form met (entry :: entries) ↔
      met.contains wanted.key = false ∧ wanted.Takes entry.value ∧
        Takeable form (met.insert wanted.key content) entries := by
  have hmem : entry.key ∈ form.names := hkey ▸ PayloadForm.mem_names hwanted
  have hcontains : ∀ key, (met.insert wanted.key content).contains key = false ↔
      entry.key ≠ key ∧ met.contains key = false := by
    intro key
    rw [Catalog.contains, Catalog.get?_insert, hkey]
    by_cases h : key = entry.key
    · simp [h]
    · simp [h, Ne.symm h, Catalog.contains]
  -- The keys behind are not met because of this one, and not this one because they are all
  -- different.
  constructor
  · rintro ⟨honce, hunmet, htakes⟩
    rw [filed_cons_of_mem hmem, List.map_cons] at honce hunmet
    obtain ⟨hfirst, hrest⟩ := List.forall_mem_cons.1 hunmet
    obtain ⟨hnotMem, hnodup⟩ := List.nodup_cons.1 honce
    obtain ⟨htake, hothers⟩ := List.forall_mem_cons.1 htakes
    refine ⟨hkey ▸ hfirst, htake wanted hwanted hkey, hnodup, fun key hin => ?_, hothers⟩
    refine (hcontains key).2 ⟨?_, hrest key hin⟩
    rintro rfl
    exact hnotMem hin
  · rintro ⟨hfirst, htake, honce, hunmet, htakes⟩
    refine ⟨?_, ?_, List.forall_mem_cons.2 ⟨?_, htakes⟩⟩
    · rw [filed_cons_of_mem hmem, List.map_cons]
      exact List.nodup_cons.2 ⟨fun hin => ((hcontains _).1 (hunmet _ hin)).1 rfl, honce⟩
    · rw [filed_cons_of_mem hmem, List.map_cons]
      exact List.forall_mem_cons.2 ⟨hkey ▸ hfirst,
        fun key hin => ((hcontains key).1 (hunmet key hin)).2⟩
    · rintro other hother hsame
      rwa [PayloadForm.eq_of_key_eq hother hwanted (hsame.trans hkey.symm)]

/-- **The members of an object** are taken one after the other, and each attribute is filed with
what it is told. -/
theorem takeMembers_eq_ok_iff {parts : List Member}
    (hparts : List.Forall₂ Entry.IsPart entries parts)
    (hfits : ∀ entry ∈ entries, entry.value.Fits depthLimit) :
    takeMembers form text met parts = .ok met' ↔
      Takeable form met entries ∧ met' = met.insertAll (filed form entries) := by
  -- The induction is on the members; what the first files is met by the others.
  induction hparts generalizing met with
  | nil =>
    constructor
    · intro h
      exact ⟨takeable_nil, (Except.ok.inj h).symm⟩
    · rintro ⟨-, rfl⟩
      rfl
  | @cons entry part entries parts hpart _ ih =>
    obtain ⟨hfirst, hrest⟩ := List.forall_mem_cons.1 hfits
    rw [takeMembers]
    cases hlookup : form.lookup? entry.key with
    | none =>
      have hforeign := PayloadForm.lookup?_eq_none_iff.1 hlookup
      rw [takeMember_of_lookup?_none (hpart.1 ▸ hlookup), takeable_cons_of_notMem hforeign,
        filed_cons_of_notMem hforeign]
      exact ih hrest
    | some wanted =>
      obtain ⟨hwanted, hkey⟩ := PayloadForm.mem_of_lookup?_eq_some hlookup
      have hmem : entry.key ∈ form.names := hkey ▸ PayloadForm.mem_names hwanted
      have htake (next : Met) : takeMember form text met part = .ok next ↔ _ :=
        takeMember_eq_ok_iff hpart hfirst hlookup
      rw [takeable_cons_of_mem hwanted hkey (Scalar.ofValue entry.value).content?,
        filed_cons_of_mem hmem]
      constructor
      · intro h
        cases hmember : takeMember form text met part with
        | error fault =>
          rw [hmember] at h
          cases h
        | ok next =>
          rw [hmember] at h
          obtain ⟨hunmet, htakes, rfl⟩ := (htake _).1 hmember
          obtain ⟨htakeable, rfl⟩ := (ih hrest).1 h
          rw [hkey]
          exact ⟨⟨hkey ▸ hunmet, htakes, hkey ▸ htakeable⟩, rfl⟩
      · rintro ⟨⟨hunmet, htakes, htakeable⟩, rfl⟩
        rw [(htake _).2 ⟨hunmet, htakes, rfl⟩]
        refine (ih hrest).2 ⟨htakeable, ?_⟩
        rw [hkey]
        rfl

end TakeAll

/-! ### Whole payloads -/

/-- What the members of an object tell about an attribute: the content of the member with its key,
or what stands in. -/
def textIn (entries : List Entry) (wanted : Attribute) : Option String :=
  ((entries.find? (·.key = wanted.key)).bind fun entry => (Scalar.ofValue entry.value).content?).or
    wanted.standIn

/-- Whether the members of an object make a payload of a form, if they can be read at all. -/
structure Admits (form : PayloadForm) (entries : List Entry) : Prop where
  once : ∀ wanted ∈ form.attributes, (entries.map (·.key)).count wanted.key ≤ 1
  takes : ∀ entry ∈ entries, ∀ wanted ∈ form.attributes, wanted.key = entry.key →
    wanted.Takes entry.value
  present : ∀ wanted ∈ form.attributes, wanted.standIn = none →
    ∃ entry ∈ entries, entry.key = wanted.key

section Whole

variable {form : PayloadForm} {entries : List Entry} {wanted : Attribute}

/-- What is filed under the key of an attribute is the content of the first member with that key. -/
theorem lookup_filed {key : String} (h : key ∈ form.names) (entries : List Entry) :
    (filed form entries).lookup key =
      (entries.find? (·.key = key)).map fun entry => (Scalar.ofValue entry.value).content? := by
  induction entries with
  | nil => rfl
  | cons entry entries ih =>
    -- The first member with the key is the one that is found.
    by_cases hkey : entry.key = key
    · rw [filed_cons_of_mem (hkey ▸ h), Catalog.lookup_cons_ite, if_pos hkey.symm,
        List.find?_cons_of_pos (by simpa using hkey)]
      rfl
    · rw [List.find?_cons_of_neg (by simpa using hkey), ← ih]
      by_cases hmem : entry.key ∈ form.names
      · rw [filed_cons_of_mem hmem, Catalog.lookup_cons_ite, if_neg (Ne.symm hkey)]
      · rw [filed_cons_of_notMem hmem]

/-- What is filed about an attribute is what the members tell about it. -/
theorem textOf?_insertAll (honce : ((filed form entries).map (·.1)).Nodup)
    (hwanted : wanted ∈ form.attributes) :
    textOf? (Catalog.empty.insertAll (filed form entries)) wanted = textIn entries wanted := by
  rw [textOf?, Catalog.get?_insertAll _ honce, lookup_filed (PayloadForm.mem_names hwanted),
    Catalog.get?_empty, Option.or_none, textIn]
  cases entries.find? (·.key = wanted.key) with
  | none => rfl
  | some entry =>
    rw [Option.map_some, Option.bind_some]
    cases (Scalar.ofValue entry.value).content? <;> rfl

/-- What is filed is what was told. -/
theorem keys_filed (form : PayloadForm) (entries : List Entry) :
    (filed form entries).map (·.1) = (form.told entries).map (·.1) := by
  rw [filed, List.map_map]
  rfl

/-- Nothing is filed twice just if no attribute is told twice. -/
theorem nodup_filed_iff : ((filed form entries).map (·.1)).Nodup ↔
    ∀ wanted ∈ form.attributes, (entries.map (·.key)).count wanted.key ≤ 1 := by
  rw [keys_filed, List.nodup_iff_count_le_one]
  constructor
  · intro h wanted hwanted
    rw [← PayloadForm.count_told hwanted]
    exact h wanted.key
  · intro h key
    by_cases hkey : key ∈ form.names
    · obtain ⟨wanted, hwanted, rfl⟩ := List.mem_map.1 hkey
      rw [PayloadForm.count_told hwanted]
      exact h wanted hwanted
    · -- A key that is not asked for is filed not even once.
      rw [PayloadForm.keys_told, List.count_eq_zero_of_not_mem]
      · exact Nat.zero_le 1
      · intro hin
        exact hkey (by simpa using (List.mem_filter.1 hin).2)

/-- At the start nothing has been met, so members are taken if each attribute is told once at most
and takes what it is told. -/
theorem takeable_empty_iff : Takeable form .empty entries ↔
    (∀ wanted ∈ form.attributes, (entries.map (·.key)).count wanted.key ≤ 1) ∧
      ∀ entry ∈ entries, ∀ wanted ∈ form.attributes, wanted.key = entry.key →
        wanted.Takes entry.value := by
  rw [← nodup_filed_iff]
  exact ⟨fun h => ⟨h.once, h.takes⟩, fun ⟨honce, htakes⟩ => ⟨honce, fun _ _ => rfl, htakes⟩⟩

/-- A required attribute has a text if there is a member for it. -/
theorem isSome_textIn_iff (hwanted : wanted ∈ form.attributes)
    (htakes : ∀ entry ∈ entries, ∀ wanted ∈ form.attributes, wanted.key = entry.key →
      wanted.Takes entry.value) :
    (textIn entries wanted).isSome = true ↔
      (wanted.standIn = none → ∃ entry ∈ entries, entry.key = wanted.key) := by
  rw [textIn]
  cases hstandIn : wanted.standIn with
  | some text => simp
  | none =>
    cases hfind : entries.find? (·.key = wanted.key) with
    | none =>
      have hnone : ∀ entry ∈ entries, entry.key ≠ wanted.key := by simpa using hfind
      simpa using hnone
    | some entry =>
      -- Nothing stands in, so the member cannot be null, and it has content.
      have hmem := List.mem_of_find?_eq_some hfind
      have hkey : entry.key = wanted.key := by simpa using List.find?_some hfind
      have htake := htakes entry hmem wanted hwanted hkey.symm
      rw [Attribute.Takes, hstandIn] at htake
      have hcontent : (Scalar.ofValue entry.value).content?.isSome = true := by
        cases hvalue : Scalar.ofValue entry.value with
        | text content => rfl
        | null => simp [hvalue] at htake
        | nested => simp [hvalue] at htake
      simpa [hcontent] using ⟨entry, hmem, hkey⟩

/-- Members make a payload if they can be taken and nothing is missing then. -/
theorem admits_iff : Admits form entries ↔ Takeable form .empty entries ∧
    missing? form (Catalog.empty.insertAll (filed form entries)) = none := by
  -- A required attribute is missing just if there is no member for it.
  have hmissing (h : Takeable form .empty entries) :
      missing? form (Catalog.empty.insertAll (filed form entries)) = none ↔
        ∀ wanted ∈ form.attributes, wanted.standIn = none →
          ∃ entry ∈ entries, entry.key = wanted.key := by
    simp only [missing?, List.find?_eq_none, Bool.not_eq_true, Option.isNone_eq_false_iff]
    refine forall₂_congr fun wanted hwanted => ?_
    rw [textOf?_insertAll h.once hwanted]
    exact isSome_textIn_iff hwanted h.takes
  constructor
  · rintro ⟨honce, htakes, hpresent⟩
    have htakeable := takeable_empty_iff.2 ⟨honce, htakes⟩
    exact ⟨htakeable, (hmissing htakeable).2 hpresent⟩
  · rintro ⟨htakeable, hnone⟩
    obtain ⟨honce, htakes⟩ := takeable_empty_iff.1 htakeable
    exact ⟨honce, htakes, (hmissing htakeable).1 hnone⟩

/-- The payload that the members of an object make. -/
def ofEntries (form : PayloadForm) (entries : List Entry) : Payload :=
  ⟨form, form.attributes.map fun wanted => (wanted.key, (textIn entries wanted).getD "")⟩

/-- Whether some members can be read as an object, whatever they say: each is within the limits of
the reader, and with the texts that are embedded in them they make an object. -/
structure AreReadable (entries : List Entry) : Prop where
  fits : ∀ entry ∈ entries, entry.value.Fits (depthLimit - 1)
  object : ∃ members, (Value.ofEntries entries).StandsFor (.object members)

/-- Members can be read if the object that they are in is parsed as an object. -/
theorem areReadable_iff {raw : String} (h : IsObject raw.toList entries) :
    AreReadable entries ↔ ∃ members, parse raw.toList = .ok (.object members) := by
  constructor
  · rintro ⟨hfits, members, hstands⟩
    exact ⟨members, h.parse_eq_ok_iff.2 ⟨hfits, hstands⟩⟩
  · rintro ⟨members, hparse⟩
    obtain ⟨hfits, hstands⟩ := h.parse_eq_ok_iff.1 hparse
    exact ⟨hfits, members, hstands⟩

/-- Members without containers can be read, but for one that is first and holds a text. -/
theorem areReadable_of_isLeaf (hfirst : ∀ first ∈ entries.head?, first.key ≠ embeddedKey)
    (h : ∀ entry ∈ entries, entry.value.Fits (depthLimit - 1) ∧ entry.value.IsLeaf) :
    AreReadable entries :=
  ⟨fun entry hentry => (h entry hentry).1,
    exists_standsFor_ofEntries hfirst fun entry hentry => ⟨_, (h entry hentry).2.standsFor⟩⟩

/-- **A payload is read from an object** if and only if the object can be read as one and its
members make a payload. -/
theorem read_eq_ok_iff {raw : String} (h : IsObject raw.toList entries) {payload : Payload} :
    read form raw = .ok payload ↔ AreReadable entries ∧ Admits form entries ∧
      payload = ofEntries form entries := by
  obtain ⟨inside, parts, after, hopen, hmembers, hparts⟩ := h.exists_parts
  by_cases hreadable : AreReadable entries
  · obtain ⟨found, hparse⟩ := (areReadable_iff h).1 hreadable
    -- Each member is read again on its own, where one more container may be open.
    have hsucc : ∀ entry ∈ entries, entry.value.Fits depthLimit :=
      fun entry hentry => (hreadable.fits entry hentry).succ
    have htake (met : Met) : takeMembers form raw.toList .empty parts = .ok met ↔ _ :=
      takeMembers_eq_ok_iff hparts hsucc
    simp only [read, hparse, hopen, ofInside, hmembers, hreadable, true_and]
    rw [admits_iff]
    cases hmet : takeMembers form raw.toList .empty parts with
    | error fault =>
      constructor
      · exact fun h => nomatch h
      · rintro ⟨⟨htakeable, -⟩, -⟩
        exact nomatch hmet.symm.trans ((htake _).2 ⟨htakeable, rfl⟩)
    | ok met =>
      obtain ⟨htakeable, rfl⟩ := (htake met).1 hmet
      have hmap : (form.attributes.map fun wanted =>
          (wanted.key, (textOf? (Catalog.empty.insertAll (filed form entries)) wanted).getD "")) =
          (ofEntries form entries).attributes := by
        refine List.map_congr_left fun wanted hwanted => ?_
        rw [textOf?_insertAll htakeable.once hwanted]
      simp only [hmap]
      cases missing? form (Catalog.empty.insertAll (filed form entries)) with
      | some wanted => simp
      | none =>
        constructor
        · intro h
          exact ⟨⟨htakeable, rfl⟩, (Except.ok.inj h).symm⟩
        · rintro ⟨-, rfl⟩
          rfl
  · -- What is read first is then no object, and the members are not looked at.
    have hparse (members : List (String × Value)) : parse raw.toList ≠ .ok (.object members) :=
      fun hparse => hreadable ((areReadable_iff h).2 ⟨members, hparse⟩)
    constructor
    · intro hread
      unfold read at hread
      simp only at hread
      split at hread
      next => cases hread
      next members hobject => exact absurd hobject (hparse members)
      next => cases hread
    · rintro ⟨h, -⟩
      exact absurd h hreadable

/-- What a payload is read from is an object. -/
theorem exists_isObject_of_read {raw : String} {payload : Payload}
    (h : read form raw = .ok payload) : ∃ entries, IsObject raw.toList entries := by
  unfold read at h
  simp only at h
  split at h
  next => cases h
  next members hparse =>
    -- What is parsed as an object is a value of the grammar, and it starts with a brace.
    obtain ⟨token, plain, helement, -, -⟩ := holds_of_parse hparse
    split at h
    next inside hopen => exact helement.exists_isObject hopen
    next => cases h
  next => cases h

end Whole

/-! ### What the text of an attribute depends on -/

section Depends

variable {form : PayloadForm} {entries others : List Entry} {wanted : Attribute}

/-- What is told is what a member says whose key is asked for. -/
theorem mem_told {key : String} {value : Value} : (key, value) ∈ form.told entries ↔
    key ∈ form.names ∧ ∃ entry ∈ entries, entry.key = key ∧ entry.value = value := by
  rw [PayloadForm.told, List.mem_map]
  constructor
  · rintro ⟨entry, hentry, hpair⟩
    obtain ⟨hmem, hkey⟩ := List.mem_filter.1 hentry
    obtain ⟨rfl, rfl⟩ := Prod.mk.inj hpair
    exact ⟨of_decide_eq_true hkey, entry, hmem, rfl, rfl⟩
  · rintro ⟨hkey, entry, hmem, rfl, rfl⟩
    exact ⟨entry, List.mem_filter.2 ⟨hmem, decide_eq_true hkey⟩, rfl⟩

/-- If a key occurs once, its member tells. -/
theorem textIn_of_mem {entry : Entry} (hmem : entry ∈ entries) (hkey : entry.key = wanted.key)
    (honce : (entries.map (·.key)).count wanted.key ≤ 1) :
    textIn entries wanted = (Scalar.ofValue entry.value).content?.or wanted.standIn := by
  suffices hfind : entries.find? (·.key = wanted.key) = some entry by
    rw [textIn, hfind, Option.bind_some]
  induction entries with
  | nil => cases hmem
  | cons first rest ih =>
    rw [List.map_cons, List.count_cons] at honce
    by_cases hfirst : first.key = wanted.key
    · rw [List.find?_cons_of_pos (by simpa using hfirst)]
      rcases List.mem_cons.1 hmem with rfl | hrest
      · rfl
      · -- The key would occur twice.
        have hcount : 0 < (rest.map (·.key)).count wanted.key :=
          List.count_pos_iff.2 (hkey ▸ List.mem_map_of_mem hrest)
        simp only [hfirst, beq_self_eq_true, if_true] at honce
        omega
    · rw [List.find?_cons_of_neg (by simpa using hfirst)]
      rcases List.mem_cons.1 hmem with rfl | hrest
      · exact absurd hkey hfirst
      · exact ih hrest (Nat.le_of_add_right_le honce)

/-- Where no member tells, the stand-in does. -/
theorem textIn_of_notMem (h : ∀ entry ∈ entries, entry.key ≠ wanted.key) :
    textIn entries wanted = wanted.standIn := by
  have hfind : entries.find? (·.key = wanted.key) = none := by simpa using h
  rw [textIn, hfind]
  rfl

section Perm

variable (hperm : (form.told others).Perm (form.told entries))
include hperm

/-- A member that tells something has a partner among the others. -/
theorem exists_of_perm {entry : Entry} (hentry : entry ∈ entries) (hkey : entry.key ∈ form.names) :
    ∃ other ∈ others, other.key = entry.key ∧ other.value = entry.value :=
  (mem_told.1 (hperm.mem_iff.2 (mem_told.2 ⟨hkey, entry, hentry, rfl, rfl⟩))).2

/-- So an attribute is told as often by them. -/
theorem count_of_perm (hwanted : wanted ∈ form.attributes) :
    (others.map (·.key)).count wanted.key = (entries.map (·.key)).count wanted.key := by
  rw [← PayloadForm.count_told hwanted others, ← PayloadForm.count_told hwanted entries]
  exact (hperm.map _).count_eq _

/-- Whether members make a payload depends on those with the keys of attributes, in
whatever order. -/
theorem Admits.of_perm (h : Admits form entries) : Admits form others where
  once := by
    intro wanted hwanted
    rw [count_of_perm hperm hwanted]
    exact h.once wanted hwanted
  takes := by
    intro other hother wanted hwanted hkey
    have hmem : other.key ∈ form.names := hkey ▸ PayloadForm.mem_names hwanted
    -- The partner has the same key and the same value, so its attribute takes it.
    obtain ⟨entry, hentry, hsame, hvalue⟩ := exists_of_perm hperm.symm hother hmem
    rw [← hvalue]
    exact h.takes entry hentry wanted hwanted (hkey.trans hsame.symm)
  present := by
    intro wanted hwanted hrequired
    obtain ⟨entry, hentry, hkey⟩ := h.present wanted hwanted hrequired
    obtain ⟨other, hother, hsame, -⟩ :=
      exists_of_perm hperm hentry (hkey ▸ PayloadForm.mem_names hwanted)
    exact ⟨other, hother, hsame.trans hkey⟩

/-- So does the payload that they make. -/
theorem ofEntries_of_perm (h : Admits form entries) :
    ofEntries form others = ofEntries form entries := by
  rw [ofEntries, ofEntries]
  congr 1
  refine List.map_congr_left fun wanted hwanted => ?_
  have honce := h.once wanted hwanted
  by_cases hmem : ∃ entry ∈ entries, entry.key = wanted.key
  · obtain ⟨entry, hentry, hkey⟩ := hmem
    obtain ⟨other, hother, hsame, hvalue⟩ :=
      exists_of_perm hperm hentry (hkey ▸ PayloadForm.mem_names hwanted)
    rw [textIn_of_mem hentry hkey honce,
      textIn_of_mem hother (hsame.trans hkey) (count_of_perm hperm hwanted ▸ honce), hvalue]
  · -- If neither row of members tells, the stand-in does for both.
    have hnone : ∀ entry ∈ entries, entry.key ≠ wanted.key :=
      fun entry hentry hkey => hmem ⟨entry, hentry, hkey⟩
    have hnone' : ∀ other ∈ others, other.key ≠ wanted.key := by
      rintro other hother hkey
      obtain ⟨entry, hentry, hsame, -⟩ :=
        exists_of_perm hperm.symm hother (hkey ▸ PayloadForm.mem_names hwanted)
      exact hnone entry hentry (hsame.trans hkey)
    rw [textIn_of_notMem hnone, textIn_of_notMem hnone']

end Perm

end Depends

/-! ### What is kept of a text -/

/-- What the members of an object tell about an attribute. -/
inductive Tells (entries : List Entry) (wanted : Attribute) : String → Prop
  /-- A number is kept as its token, character for character. -/
  | number {entry : Entry} {number : Number} (hentry : entry ∈ entries)
      (hkey : entry.key = wanted.key) (hvalue : entry.value = .number number) :
      Tells entries wanted (String.ofList entry.token)
  | bool {entry : Entry} {value : Bool} (hentry : entry ∈ entries) (hkey : entry.key = wanted.key)
      (hvalue : entry.value = .bool value) : Tells entries wanted (String.ofList entry.token)
  /-- A string is kept as what it denotes. -/
  | text {entry : Entry} {content : String} (hentry : entry ∈ entries)
      (hkey : entry.key = wanted.key) (hvalue : entry.value = .text content) :
      Tells entries wanted content
  | null {entry : Entry} {text : String} (hentry : entry ∈ entries) (hkey : entry.key = wanted.key)
      (hvalue : entry.value = .null) (hstandIn : wanted.standIn = some text) :
      Tells entries wanted text
  | absent {text : String} (habsent : ∀ entry ∈ entries, entry.key ≠ wanted.key)
      (hstandIn : wanted.standIn = some text) : Tells entries wanted text

section Tells

variable {form : PayloadForm} {entries : List Entry} {wanted : Attribute}

/-- What is kept of a value that an attribute takes is what its member tells. -/
theorem tells_of_mem {entry : Entry} (htoken : Derives (.value entry.value) entry.token)
    (hentry : entry ∈ entries) (hkey : entry.key = wanted.key) (htakes : wanted.Takes entry.value) :
    Tells entries wanted (((Scalar.ofValue entry.value).content?.or wanted.standIn).getD "") := by
  cases hvalue : entry.value with
  | null =>
    rw [hvalue] at htakes
    obtain ⟨text, hstandIn⟩ := Option.isSome_iff_exists.1 htakes
    rw [hstandIn]
    exact .null hentry hkey hvalue hstandIn
  | bool b =>
    rw [hvalue] at htoken
    -- A word is written in one way only.
    have hcontent : (Scalar.ofValue (.bool b)).content? = some (String.ofList entry.token) := by
      generalize entry.token = token at htoken
      cases htoken <;> rfl
    rw [hcontent]
    exact .bool hentry hkey hvalue
  | number number =>
    rw [hvalue] at htoken
    -- A number is kept as it is spelt, and the token is that.
    have hspelling : entry.token = number.spelling := by
      generalize entry.token = token at htoken
      cases htoken
      rfl
    have htells := Tells.number hentry hkey hvalue
    rw [hspelling] at htells
    exact htells
  | text content => exact .text hentry hkey hvalue
  | array elements =>
    rw [hvalue] at htakes
    exact htakes.elim
  | object members =>
    rw [hvalue] at htakes
    exact htakes.elim

/-- If members make a payload, then each attribute has the text that it is told. -/
theorem tells_textIn (hderives : ∀ entry ∈ entries, Derives (.value entry.value) entry.token)
    (h : Admits form entries) (hwanted : wanted ∈ form.attributes) :
    Tells entries wanted ((textIn entries wanted).getD "") := by
  by_cases hmem : ∃ entry ∈ entries, entry.key = wanted.key
  · obtain ⟨entry, hentry, hkey⟩ := hmem
    rw [textIn_of_mem hentry hkey (h.once wanted hwanted)]
    exact tells_of_mem (hderives entry hentry) hentry hkey
      (h.takes entry hentry wanted hwanted hkey.symm)
  · have hnone : ∀ entry ∈ entries, entry.key ≠ wanted.key :=
      fun entry hentry hkey => hmem ⟨entry, hentry, hkey⟩
    rw [textIn_of_notMem hnone]
    cases hstandIn : wanted.standIn with
    | none => exact absurd (h.present wanted hwanted hstandIn) hmem
    | some text => exact .absent hnone hstandIn

end Tells

/-- **A payload keeps what the device sent.** What it is read from is an object, and its attributes
are those of the kind in their order, each with the text that its member tells. Any other object
whose members with the keys of the attributes say the same is read as the same payload, unless it
starts as an object that holds a text, or one of its other members cannot be read at all: neither
the order of members nor blanks nor escapes nor other members matter. -/
theorem tells_read {kind : EntityKind} {raw : String} {payload : Payload}
    (h : read kind.form raw = .ok payload) :
    (∃ entries, IsObject raw.toList entries) ∧ ∀ entries, IsObject raw.toList entries →
      List.Forall₂ (fun wanted pair => pair.1 = wanted.key ∧ Tells entries wanted pair.2)
        kind.form.attributes payload.attributes ∧
      (∀ wanted ∈ kind.form.attributes, (entries.map (·.key)).count wanted.key ≤ 1) ∧
      ∀ (other : String) (others : List Entry), IsObject other.toList others →
        (kind.form.told others).Perm (kind.form.told entries) →
        (∀ first ∈ others.head?, first.key ≠ embeddedKey) →
        (∀ entry ∈ others, entry.value ∈ entries.map (·.value) ∨
          entry.value.Fits (depthLimit - 1) ∧ ∃ value, entry.value.StandsFor value) →
        read kind.form other = .ok payload := by
  refine ⟨exists_isObject_of_read h, fun entries hobject => ?_⟩
  obtain ⟨⟨hfits, found, hstands⟩, hadmits, rfl⟩ := (read_eq_ok_iff hobject).1 h
  refine ⟨?_, hadmits.once, ?_⟩
  · refine List.forall₂_map_right_iff.2 (List.forall₂_same.2 fun wanted hwanted => ⟨rfl, ?_⟩)
    exact tells_textIn hobject.of_mem hadmits hwanted
  · intro other others hother hperm hfirst hothers
    -- A value that could be read in the one object can be read in the other.
    have hvalue : ∀ entry ∈ others, entry.value.Fits (depthLimit - 1) ∧
        ∃ value, entry.value.StandsFor value := by
      intro entry hentry
      rcases hothers entry hentry with hsame | hreads
      · obtain ⟨like, hlike, hvalue⟩ := List.mem_map.1 hsame
        rw [← hvalue]
        exact ⟨hfits like hlike, exists_standsFor_of_mem hstands hlike⟩
      · exact hreads
    have hreadable : AreReadable others := ⟨fun entry hentry => (hvalue entry hentry).1,
      exists_standsFor_ofEntries hfirst fun entry hentry => (hvalue entry hentry).2⟩
    have hsame := (ofEntries_of_perm hperm hadmits).symm
    exact (read_eq_ok_iff hother).2 ⟨hreadable, hadmits.of_perm hperm, hsame⟩

/-- A number keeps its fraction and a string loses its escapes, also in the key. -/
theorem tells_read_register :
    ∃ entries,
      IsObject "\x7b \"v\\u0061lue\" : 5.0, \"width\":[32], \"index\":\"a\\\"b\" \x7d".toList
        entries ∧
      List.Forall₂ (fun wanted pair => pair.1 = wanted.key ∧ Tells entries wanted pair.2)
        EntityKind.register.form.attributes [("index", "a\"b"), ("value", "5.0")] := by
  have hread : read EntityKind.register.form
      "\x7b \"v\\u0061lue\" : 5.0, \"width\":[32], \"index\":\"a\\\"b\" \x7d" =
        .ok ⟨.register, [("index", "a\"b"), ("value", "5.0")]⟩ := by
    decide +kernel
  obtain ⟨⟨entries, hobject⟩, hall⟩ := tells_read hread
  exact ⟨entries, hobject, (hall entries hobject).1⟩

end Payload

end Lineage.Telemetry
