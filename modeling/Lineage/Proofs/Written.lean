import Lineage.Json.Shape
import Lineage.Keyed
import Lineage.Proofs.Recognition
import Lineage.Proofs.Rendering

/-!
# Values are read as what they were written for

A reader `Reads` a value as something if it makes that of every text that starts with the value, in
whatever way the grammar allows it to be spelt. Strings, natural numbers and objects of strings are
read so (`reads_text`, `reads_nat`, `reads_ofTexts`), and so are the two ways of writing a choice
(`reads_choice_text`, `reads_choice_object`). A record is read from an object whose members are
fields of the record, each with a value that the field takes (`readRecord_of_startsWith`), and every
field is read as what its member says (`get_startsAt`, `getOr_startsAt`); a tag among the members is
taken apart from them (`readTagged_of_startsWith`).

What is written for a value is one of its spellings. So a written value is decoded as what a reader
reads it as (`Reads.decode_eq`).
-/

namespace Lineage.Json

/-! ### Where values start -/

/-- Whether a text starts with a value, in any spelling. -/
def StartsWith (value : Value) (start : List Char) : Prop :=
  ∃ token rest, Derives (.value value) token ∧ EndsNumber rest ∧ start = token ++ rest

/-- Whether a part of an object is a member with a key and a value. -/
structure IsWritten (pair : String × Value) (part : Member) : Prop where
  key : part.key = pair.1
  value : ∃ start, part.value = .ok start ∧ StartsWith pair.2 start

/-- The part that a reader makes of an entry holds its key and its value. -/
theorem Entry.IsPart.isWritten {entry : Entry} {part : Member} (h : entry.IsPart part) :
    IsWritten (entry.key, entry.value) part := by
  obtain ⟨hkey, start, hstart, htoken, rest, hends, hsplit⟩ := h
  exact ⟨hkey, start, hstart, entry.token, rest, htoken, hends, hsplit⟩

section StartsWith

variable {start : List Char}

/-- A string can be read behind its opening quote. -/
theorem StartsWith.exists_text {content : String} (h : StartsWith (.text content) start) :
    ∃ inside rest, dropBlanks start = '"' :: inside ∧ readText inside = .ok (content, rest) := by
  obtain ⟨token, rest, htoken, -, rfl⟩ := h
  cases htoken with
  | @text source content hsource =>
    refine ⟨source ++ '"' :: rest, rest, ?_, hsource.readText_append rest⟩
    rw [List.cons_append, List.append_assoc]
    exact dropBlanks_cons (by decide) _

/-- An object falls into its members, and its first key can be read at once. -/
theorem StartsWith.exists_members {pairs : List (String × Value)}
    (h : StartsWith (.object pairs) start) :
    ∃ inside rest parts, dropBlanks start = '{' :: inside ∧ members inside = ⟨parts, .ok rest⟩ ∧
      List.Forall₂ IsWritten pairs parts ∧
      ∀ pair ∈ pairs.head?, ∃ key afterKey, dropBlanks inside = '"' :: key ∧
        readText key = .ok (pair.1, afterKey) := by
  obtain ⟨token, rest, htoken, -, rfl⟩ := h
  cases htoken with
  | @object entries inside hinside =>
    -- The members that the grammar tells apart are the parts that the reader makes of the object.
    obtain ⟨parts, hparts, hall⟩ := hinside.members_append rest
    refine ⟨inside ++ '}' :: rest, rest, parts, ?_, hparts, ?_, ?_⟩
    · rw [List.cons_append, List.append_assoc]
      exact dropBlanks_cons (by decide) _
    · exact List.forall₂_map_left_iff.2 (hall.imp fun _ _ hpart => hpart.isWritten)
    · intro pair hpair
      cases entries with
      | nil => cases hpair
      | cons first more =>
        obtain rfl : (first.key, first.value) = pair := Option.some.inj hpair
        exact hinside.members_start ('}' :: rest)

/-- A value within the limits is read as itself. -/
theorem StartsWith.readValue_eq {value : Value} (h : StartsWith value start) {budget : Nat}
    (hfits : value.Fits budget) : readValue budget start = .ok value := by
  obtain ⟨token, rest, htoken, hends, rfl⟩ := h
  exact (htoken.isRead budget rest value (hends.endsToken value)).2 ⟨rfl, hfits⟩

end StartsWith

/-! ### Readers of scalars -/

/-- Whether a reader takes a value for something, in any spelling and whatever follows it. -/
def Reads {α : Type} (reader : Reader α) (value : Value) (a : α) : Prop :=
  ∀ start, StartsWith value start → reader start = .ok a

/-- A reader that goes on with what was read. -/
theorem Reads.map {α β : Type} {reader : Reader α} {value : Value} {a : α}
    (h : Reads reader value a) (f : α → β) :
    Reads (fun input => (reader input).map f) value (f a) := by
  intro start hstart
  exact congrArg (Except.map f) (h start hstart)

/-- A string is read as its content. -/
theorem reads_text (content : String) : Reads readString (.text content) content := by
  intro start hstart
  obtain ⟨inside, rest, hopen, htext⟩ := hstart.exists_text
  unfold readString
  simp only [hopen, htext]
  rfl

/-- So it is where `null` is allowed too. -/
theorem reads_text_orNull (content : String) :
    Reads readStringOrNull (.text content) (some content) := by
  intro start hstart
  have hread := reads_text content start hstart
  obtain ⟨inside, rest, hopen, -⟩ := hstart.exists_text
  unfold readStringOrNull
  simp only [hopen, hread]
  rfl

/-- A number that is a natural number within the limit is read as it. -/
theorem reads_nat {number : Number} {n limit : Nat} (hnat : number.toNat? = some n)
    (hrange : number.toDouble?.isSome = true) (hlimit : n ≤ limit) :
    Reads (readNatUpTo limit) (.number number) n := by
  rintro start ⟨token, rest, htoken, hends, rfl⟩
  cases htoken with
  | number hspelt =>
    have hread := (readNumber_append hspelt hends _).2 ⟨rfl, hrange⟩
    have hdrop := (Derives.number hspelt).dropBlanks_eq rest
    -- A number starts with a digit or with a sign.
    obtain ⟨first, more, hspelling, hfirst⟩ := hspelt.exists_cons
    rw [hspelling, List.cons_append] at hread hdrop ⊢
    unfold readNatUpTo
    simp only [hdrop, if_pos hfirst, hread, hnat, if_pos hlimit]

/-- The number that a natural number is written as is read as it. -/
theorem reads_ofNat {n limit : Nat} (hlimit : n ≤ limit) (hfits : n < 2 ^ 64) :
    Reads (readNatUpTo limit) (.ofNat n) n :=
  reads_nat (Number.toNat?_ofNat hfits) (Number.isSome_toDouble?_ofNat hfits) hlimit

/-! ### Objects of strings -/

/-- Members that say texts are read into a catalog. -/
theorem readStringMembers_of_written {pairs : List (String × String)} {parts : List Member}
    (h : List.Forall₂ IsWritten (pairs.map fun pair => (pair.1, .text pair.2)) parts)
    (catalog : Catalog String) :
    readStringMembers catalog parts = .ok (catalog.insertAll pairs) := by
  -- Along the members; the catalog holds what those in front have said.
  induction pairs generalizing parts catalog with
  | nil =>
    cases h
    rfl
  | cons pair pairs ih =>
    obtain ⟨key, content⟩ := pair
    obtain ⟨part, parts, ⟨hkey, start, hvalue, hstart⟩, hrest, rfl⟩ :=
      List.forall₂_cons_left_iff.1 h
    rw [readStringMembers, hvalue]
    simp only [orUnreadable, reads_text content start hstart, hkey]
    exact ih hrest _

/-- An object of strings is read as the catalog that it was written for. -/
theorem reads_ofTexts (catalog : Catalog String) :
    Reads readStrings (.ofTexts catalog) catalog := by
  intro start hstart
  obtain ⟨inside, rest, parts, hopen, hparts, hwritten, -⟩ := StartsWith.exists_members hstart
  unfold readStrings
  simp only [hopen, hparts, readStringMembers_of_written hwritten]
  -- The entries of a catalog, inserted one by one, make it up again.
  exact congrArg Except.ok catalog.ofList_entries

/-! ### Records -/

/-- Whether a record has a field of a key, and the field takes the value. -/
def IsField (fields : List Field) (pair : String × Value) : Prop :=
  ∃ field, fields.find? (·.name = pair.1) = some field ∧ Reads field.check pair.2 ()

/-- Whether a field is found where its value starts. -/
def StartsAt (pair : String × Value) (found : String × List Char) : Prop :=
  found.1 = pair.1 ∧ StartsWith pair.2 found.2

/-- A field takes the values that its reader reads. -/
theorem Reads.field {α : Type} {reader : Reader α} {value : Value} {a : α}
    (h : Reads reader value a) (name : String) : Reads (Field.of name reader).check value () :=
  h.map fun _ => ()

section Fields

variable {fields : List Field} {pairs : List (String × Value)}

/-- The field that is found by its name is the one that was meant, if no two have the same name. -/
theorem isField_of_mem {α : Type} {reader : Reader α} {name : String} {value : Value} {a : α}
    (hnames : (fields.map Field.name).Nodup) (hmem : Field.of name reader ∈ fields)
    (h : Reads reader value a) : IsField fields (name, value) :=
  ⟨_, find?_key_of_mem Field.name hnames hmem, h.field name⟩

/-- Members that are fields are taken as such, if none of them is there twice. -/
theorem takeFields_of_written {parts : List Member} (hwritten : List.Forall₂ IsWritten pairs parts)
    (hfields : ∀ pair ∈ pairs, IsField fields pair) (hkeys : (pairs.map (·.1)).Nodup) {met : Starts}
    (hmet : ∀ pair ∈ pairs, met.lookup pair.1 = none) :
    ∃ starts, takeFields fields met parts = .ok (met ++ starts) ∧
      List.Forall₂ StartsAt pairs starts := by
  induction pairs generalizing parts met with
  | nil =>
    cases hwritten
    exact ⟨[], by rw [takeFields, List.append_nil], .nil⟩
  | cons pair pairs ih =>
    obtain ⟨part, parts, ⟨hkey, start, hvalue, hstart⟩, hrest, rfl⟩ :=
      List.forall₂_cons_left_iff.1 hwritten
    obtain ⟨field, hfield, hcheck⟩ := hfields pair List.mem_cons_self
    rw [List.map_cons, List.nodup_cons] at hkeys
    -- None of the members behind this one has its key.
    have hlater : ∀ other ∈ pairs, (met ++ [(pair.1, start)]).lookup other.1 = none := by
      intro other hmem
      have hne : other.1 ≠ pair.1 := fun heq => hkeys.1 (heq ▸ List.mem_map_of_mem hmem)
      rw [List.lookup_append, hmet other (List.mem_cons_of_mem _ hmem), Option.none_or,
        Catalog.lookup_cons_ite, if_neg hne]
      rfl
    obtain ⟨starts, hstarts, hat⟩ :=
      ih hrest (fun other hmem => hfields other (List.mem_cons_of_mem _ hmem)) hkeys.2 hlater
    refine ⟨(pair.1, start) :: starts, ?_, .cons ⟨rfl, hstart⟩ hat⟩
    rw [takeFields]
    simp only [hkey, hfield, hmet pair List.mem_cons_self, hvalue, orUnreadable,
      hcheck start hstart, hstarts]
    simp

/-- Members that are fields are taken as such from the start. -/
theorem exists_takeFields {parts : List Member} (hwritten : List.Forall₂ IsWritten pairs parts)
    (hfields : ∀ pair ∈ pairs, IsField fields pair) (hkeys : (pairs.map (·.1)).Nodup) :
    ∃ starts, takeFields fields [] parts = .ok starts ∧ List.Forall₂ StartsAt pairs starts := by
  have hnone : ∀ pair ∈ pairs, ([] : Starts).lookup pair.1 = none := fun _ _ => rfl
  obtain ⟨starts, hstarts, hat⟩ := takeFields_of_written hwritten hfields hkeys hnone
  exact ⟨starts, hstarts, hat⟩

/-- **A record is read from an object of its fields**, with every field where its value starts. -/
theorem readRecord_of_startsWith {start : List Char} (hstart : StartsWith (.object pairs) start)
    (hfields : ∀ pair ∈ pairs, IsField fields pair) (hkeys : (pairs.map (·.1)).Nodup) :
    ∃ starts, readRecord fields start = .ok starts ∧ List.Forall₂ StartsAt pairs starts := by
  obtain ⟨inside, rest, parts, hopen, hparts, hwritten, -⟩ := hstart.exists_members
  obtain ⟨starts, hstarts, hat⟩ := exists_takeFields hwritten hfields hkeys
  refine ⟨starts, ?_, hat⟩
  unfold readRecord
  simp only [hopen, hparts, hstarts]
  rfl

end Fields

section Starts

variable {pairs : List (String × Value)} {starts : Starts} (h : List.Forall₂ StartsAt pairs starts)
  {name : String}
include h

/-- What was said of a field is where it was found. -/
theorem lookup_startsAt {value : Value} (hvalue : pairs.lookup name = some value) :
    ∃ start, starts.lookup name = some start ∧ StartsWith value start := by
  -- The first member with the name is met in both lists at the same place.
  induction h with
  | nil => exact nomatch hvalue
  | @cons pair found pairs starts hat _ ih =>
    obtain ⟨key, first⟩ := pair
    obtain ⟨foundKey, start⟩ := found
    obtain ⟨rfl, hstart⟩ := hat
    rw [Catalog.lookup_cons_ite] at hvalue ⊢
    split
    next heq =>
      rw [if_pos heq] at hvalue
      obtain rfl := Option.some.inj hvalue
      exact ⟨start, rfl, hstart⟩
    next hne =>
      rw [if_neg hne] at hvalue
      exact ih hvalue

/-- A field that was not said is not found. -/
theorem lookup_startsAt_none (hnone : pairs.lookup name = none) : starts.lookup name = none := by
  induction h with
  | nil => rfl
  | @cons pair found pairs starts hat _ ih =>
    obtain ⟨key, first⟩ := pair
    obtain ⟨foundKey, start⟩ := found
    obtain ⟨rfl, hstart⟩ := hat
    rw [Catalog.lookup_cons_ite] at hnone ⊢
    split
    next heq => exact absurd (hnone.symm.trans (if_pos heq)) (by simp)
    next hne =>
      rw [if_neg hne] at hnone
      exact ih hnone

/-- A field is read as what its member says. -/
theorem get_startsAt {α : Type} {reader : Reader α} {value : Value} {a : α}
    (hvalue : pairs.lookup name = some value) (hreads : Reads reader value a) :
    starts.get name reader = .ok a := by
  obtain ⟨start, hlookup, hstart⟩ := lookup_startsAt h hvalue
  rw [Starts.get, hlookup]
  exact hreads start hstart

/-- A text that may be left out is read as its member says, or as absent. -/
theorem getOr_startsAt {text : Option String} (hvalue : pairs.lookup name = text.map .text) :
    starts.getOr name none readStringOrNull = .ok text := by
  rw [Starts.getOr]
  -- What is absent has no member.
  cases text with
  | none => rw [lookup_startsAt_none h hvalue]
  | some content =>
    obtain ⟨start, hlookup, hstart⟩ := lookup_startsAt h hvalue
    rw [hlookup]
    exact reads_text_orNull content start hstart

end Starts

/-! ### Choices -/

section Tagged

variable {tag : String} {variants : List String}

/-- Members besides the tag are kept, if they are within the limits. -/
theorem takeTag_of_written {pairs : List (String × Value)} {parts : List Member}
    (hwritten : List.Forall₂ IsWritten pairs parts) (hothers : ∀ pair ∈ pairs, pair.1 ≠ tag)
    (hfits : ∀ pair ∈ pairs, pair.2.Fits (depthLimit - 1)) (variant : Option String)
    (kept : List Member) :
    takeTag tag variants variant kept parts = .ok (variant, kept ++ parts) := by
  induction hwritten generalizing kept with
  | nil => rw [takeTag, List.append_nil]
  | @cons pair part pairs parts hfirst _ ih =>
    obtain ⟨hkey, start, hvalue, hstart⟩ := hfirst
    obtain ⟨hother, hothers⟩ := List.forall_mem_cons.1 hothers
    obtain ⟨hfit, hfits⟩ := List.forall_mem_cons.1 hfits
    -- It is passed over as a value, which is why it has to be within the limits.
    rw [takeTag, if_neg (hkey ▸ hother), hvalue]
    simp only [orUnreadable, hstart.readValue_eq hfit]
    rw [ih hothers hfits, List.append_assoc]
    rfl

/-- **A tag in front of other members** is taken apart from them. -/
theorem readTagged_of_startsWith {name : String} {pairs : List (String × Value)}
    {start : List Char} (hstart : StartsWith (.object ((tag, .text name) :: pairs)) start)
    (hname : name ∈ variants) (hothers : ∀ pair ∈ pairs, pair.1 ≠ tag)
    (hfits : ∀ pair ∈ pairs, pair.2.Fits (depthLimit - 1)) :
    ∃ parts, readTagged tag variants start = .ok ⟨name, .inl parts⟩ ∧
      List.Forall₂ IsWritten pairs parts := by
  obtain ⟨inside, rest, parts, hopen, hparts, hwritten, -⟩ := hstart.exists_members
  obtain ⟨part, parts, ⟨hkey, start, hvalue, hat⟩, hrest, rfl⟩ :=
    List.forall₂_cons_left_iff.1 hwritten
  have hvariant : readVariant variants start = .ok name := by
    rw [readVariant, reads_text name start hat]
    exact if_pos hname
  -- The tag is met first, so the variant is known by the time the other members are kept.
  refine ⟨parts, ?_, hrest⟩
  unfold readTagged
  simp only [hopen, hparts]
  rw [takeTag, if_pos hkey, hvalue]
  simp only [Option.isSome_none, Bool.false_eq_true, if_false, orUnreadable, hvariant]
  rw [takeTag_of_written hrest hothers hfits]
  rfl

end Tagged

section Choice

variable {α : Type} {alternatives : List (Alternative α)} {alternative : Alternative α}
  {name : String} {a : α}

/-- A choice that stands alone is read from its name. -/
theorem reads_choice_text (hfind : alternatives.find? (·.name = name) = some alternative)
    (halone : alternative.alone = some a) : Reads (readChoice alternatives) (.text name) a := by
  intro start hstart
  obtain ⟨inside, rest, hopen, htext⟩ := hstart.exists_text
  unfold readChoice
  simp only [hopen, htext, orUnreadable, hfind, halone]

/-- A choice with something under it is read from an object of one member. -/
theorem reads_choice_object (hfind : alternatives.find? (·.name = name) = some alternative)
    {value : Value} (hunder : Reads alternative.under value a) :
    Reads (readChoice alternatives) (.object [(name, value)]) a := by
  intro start hstart
  obtain ⟨inside, rest, parts, hopen, hparts, hwritten, hkeys⟩ := hstart.exists_members
  obtain ⟨part, parts, ⟨hkey, start, hvalue, hat⟩, hrest, rfl⟩ :=
    List.forall₂_cons_left_iff.1 hwritten
  cases hrest
  -- The name is read before the members are told apart.
  obtain ⟨key, afterKey, hquote, htext⟩ := hkeys _ rfl
  have hname : readString inside = .ok name := by
    unfold readString
    simp only [hquote, htext]
    rfl
  unfold readChoice
  simp only [hopen, hname, hfind, hparts, hvalue, orUnreadable, hunder start hat]

end Choice

/-! ### Whole texts -/

/-- **A written value is read as a whole**: nothing is left behind it. -/
theorem Reads.decode_eq {α : Type} {reader : Reader α} {value : Value} {a : α}
    (h : Reads reader value a) (hspelt : value.IsSpelt) : decode reader value.render = .ok a := by
  have htoken := hspelt.derives_render
  have hstart : StartsWith value value.render :=
    ⟨_, [], htoken, endsNumber_nil, (List.append_nil _).symm⟩
  -- The value is passed over once more, and then nothing is left.
  have hskip : skipValue [] value.render = .ok [] := by
    have hskipped := htoken.skipped [] [] (endsNumber_nil.endsToken value)
    rwa [List.append_nil, skipRest_nil] at hskipped
  have hend : expectEnd value.render = .ok () := expectEnd_eq_ok_iff.2 ⟨[], hskip, nofun⟩
  simp only [decode, h _ hstart, hend]
  rfl

end Lineage.Json
