import Lineage.Json.Embedded
import Lineage.Proofs.Recognition
import Mathlib.Data.List.DropRight

/-!
# What embedded texts stand for

An object that holds a text stands for what the text says, and the text may hold others in turn.
`Value.StandsFor` says so on values alone: a value stands for itself but for the objects in it that
hold a text, each of which stands for what its text says. A text `Holds` a value if it is, with
blanks around it, a value within the limits that stands for that one.

Parsing takes just what a text holds (`parse_eq_ok_iff`). In one direction the induction is on the
length of the text, since an embedded text is shorter than the one around it. In the other it is on
what the value stands for; there the reader of embedded texts has to be `parse` itself, so it comes
first that `parse` turns no embedded text away for its length (`parse_eq_ok_iff_readWith`).
-/

namespace Lineage.Json

/-- What a value stands for once the texts that are embedded in it have been read. -/
inductive Value.StandsFor : Value → Value → Prop
  | null : StandsFor .null .null
  | bool (b : Bool) : StandsFor (.bool b) (.bool b)
  | number (n : Number) : StandsFor (.number n) (.number n)
  | text (content : String) : StandsFor (.text content) (.text content)
  | array {pairs : List (Value × Value)} (h : ∀ pair ∈ pairs, StandsFor pair.1 pair.2) :
      StandsFor (.array (pairs.map (·.1))) (.array (pairs.map (·.2)))
  /-- Only the first key counts: further behind, the key that marks a text is one like any other. -/
  | object {members : List (String × Value × Value)}
      (hfirst : ∀ first ∈ members.head?, first.1 ≠ embeddedKey)
      (h : ∀ member ∈ members, StandsFor member.2.1 member.2.2) :
      StandsFor (.object (members.map fun member => (member.1, member.2.1)))
        (.object (members.map fun member => (member.1, member.2.2)))
  /-- An object that holds a text has no other member. -/
  | embedded {content : String} {token : List Char} {plain value : Value}
      (hderives : Derives (.element ⟨token, plain⟩) content.toList)
      (hfits : plain.Fits depthLimit) (h : StandsFor plain value) :
      StandsFor (.object [(embeddedKey, .text content)]) value

/-- What a text says, the texts that are embedded in it included. -/
def Holds (text : List Char) (value : Value) : Prop :=
  ∃ token plain, Derives (.element ⟨token, plain⟩) text ∧ plain.Fits depthLimit ∧
    plain.StandsFor value

/-- Lists that are mapped to the same have like heads. -/
theorem exists_head?_of_map_eq {α β γ : Type} {f : α → γ} {g : β → γ} {as : List α} {bs : List β}
    (h : as.map f = bs.map g) {a : α} (ha : a ∈ as.head?) : ∃ b ∈ bs.head?, g b = f a := by
  have hhead := congrArg List.head? h
  rw [List.head?_map, List.head?_map, ha] at hhead
  exact Option.map_eq_some_iff.1 hhead.symm

/-! ### Objects that hold a text -/

/-- A brace is found if it is what comes behind the blanks. -/
theorem expectBrace_eq_ok_iff {text : List Char} :
    expectBrace text = .ok () ↔ ∃ rest, dropBlanks text = '}' :: rest := by
  unfold expectBrace
  split
  next hnil => simp [hnil]
  next rest hclose => simp [hclose]
  next rest hcomma => simp [hcomma]
  next _ hclose _ => simpa using hclose

section Embedded

variable {reader : List Char → Except Fault Value} {run : Run Member} {member : Member}

/-- A member is read as an embedded text if its value is a string, the reader takes what the string
says, and the object ends there. -/
theorem readEmbedded_eq_ok_iff {value : Value} : readEmbedded reader member = .ok value ↔
    ∃ inside content rest behind, member.value = .ok ('"' :: inside) ∧
      readText inside = .ok (content, rest) ∧ reader content.toList = .ok value ∧
      dropBlanks rest = '}' :: behind := by
  unfold readEmbedded
  split
  next fault hvalue => simp [hvalue]
  next inside hvalue =>
    split
    next fault htext => simp [hvalue, htext]
    next content rest htext =>
      split
      next fault hread => simp [hvalue, htext, hread]
      next found hread =>
        rw [map_eq_ok_iff]
        constructor
        · rintro ⟨⟨⟩, hend, rfl⟩
          obtain ⟨behind, hclose⟩ := expectBrace_eq_ok_iff.1 hend
          exact ⟨inside, content, rest, behind, hvalue, htext, hread, hclose⟩
        · rintro ⟨inside', content', rest', behind, hvalue', htext', hread', hclose⟩
          -- The string that the member starts with is the one that was read.
          obtain ⟨-, rfl⟩ := List.cons.inj (Except.ok.inj (hvalue.symm.trans hvalue'))
          obtain ⟨rfl, rfl⟩ := Prod.mk.inj (Except.ok.inj (htext.symm.trans htext'))
          obtain rfl := Except.ok.inj (hread.symm.trans hread')
          exact ⟨(), expectBrace_eq_ok_iff.2 ⟨behind, hclose⟩, rfl⟩
  next start hquote hvalue =>
    constructor
    · intro h
      cases h
    · rintro ⟨inside, -, -, -, hvalue', -⟩
      exact (hquote inside (Except.ok.inj (hvalue.symm.trans hvalue'))).elim

/-- An object is one like any other unless its first key marks a text. -/
theorem embedded?_eq_none_iff :
    embedded? reader run = none ↔ ∀ first ∈ run.parts.head?, first.key ≠ embeddedKey := by
  unfold embedded?
  split
  next hnil => simp [hnil]
  next first others hparts => simp [hparts]

/-- If it does, the first member decides what is read, whatever the others are. -/
theorem embedded?_eq_some_iff {read : Except Fault Value} : embedded? reader run = some read ↔
    ∃ member others, run.parts = member :: others ∧ member.key = embeddedKey ∧
      readEmbedded reader member = read := by
  unfold embedded?
  split
  next hnil => simp [hnil]
  next first others hparts => simp [hparts]

end Embedded

/-! ### Readers that agree -/

section Congr

/-- The elements of an array are read alike by readers that agree on each. -/
theorem readEach_congr {reader reader' : List Char → Except Fault Value}
    {starts : List (List Char)} (h : ∀ start ∈ starts, reader start = reader' start) :
    readEach reader starts = readEach reader' starts := by
  induction starts with
  | nil => rfl
  | cons start starts ih =>
    obtain ⟨hfirst, hrest⟩ := List.forall_mem_cons.1 h
    rw [readEach, readEach, hfirst, ih hrest]

/-- So are the members of an object, if the readers agree on the values that are there. -/
theorem readMembers_congr {reader reader' : List Char → Except Fault Value} {members : List Member}
    (h : ∀ member ∈ members, ∀ start, member.value = .ok start → reader start = reader' start) :
    readMembers reader members = readMembers reader' members := by
  induction members with
  | nil => rfl
  | cons member members ih =>
    obtain ⟨hfirst, hrest⟩ := List.forall_mem_cons.1 h
    rw [readMembers, readMembers, ih hrest]
    cases hvalue : member.value with
    -- A member without a value fails whatever the reader is.
    | error fault => rfl
    | ok start =>
      simp only
      rw [hfirst start hvalue]

/-- Readers agree on a text if they take the same objects in it for special, and for the same. -/
theorem readWith_congr {special special' : Run Member → Option (Except Fault Value)} {budget : Nat}
    {text : List Char}
    (h : ∀ inside : List Char, inside.length < text.length →
      special (members inside) = special' (members inside)) :
    readWith special budget text = readWith special' budget text := by
  induction budget generalizing text with
  | zero => rw [readWith.eq_def, readWith.eq_def special']
  | succ budget ih =>
    -- What holds inside of the text holds inside of each of its parts.
    have hpart {inside start : List Char} (hinside : inside.length < text.length)
        (hstart : start.length ≤ inside.length) :
        readWith special budget start = readWith special' budget start :=
      ih fun deeper hdeeper => h deeper (by omega)
    rw [readWith.eq_def, readWith.eq_def special']
    split
    next inside hopen =>
      have hinside := length_of_dropBlanks hopen
      simp only
      rw [readEach_congr fun start hstart => hpart hinside (length_of_mem_elements hstart)]
    next inside hopen =>
      have hinside := length_of_dropBlanks hopen
      simp only
      rw [h inside hinside, readMembers_congr fun member hmember start hstart => ?_]
      have h1 := length_of_mem_members hmember
      have h2 := Member.length_of_value hstart
      exact hpart hinside (by omega)
    next => rfl

/-- A string has no more characters than what stands for it. -/
theorem Denotes.length_le {source content : List Char} (h : Denotes source content) :
    content.length ≤ source.length := by
  induction h with
  | nil => exact Nat.le_refl _
  | plain _ _ _ _ ih => exact Nat.succ_le_succ ih
  | short _ _ ih => exact Nat.succ_le_succ (Nat.le_succ_of_le ih)
  | _ =>
    simp only [List.length_cons]
    omega

/-- An embedded text is shorter than the object around it. -/
theorem embedded?_congr {reader reader' : List Char → Except Fault Value} {text : List Char}
    (h : ∀ content : List Char, content.length < text.length → reader content = reader' content) :
    embedded? reader (members text) = embedded? reader' (members text) := by
  unfold embedded?
  split
  next => rfl
  next member others hparts =>
    split
    next =>
      unfold readEmbedded
      split
      next => rfl
      next inside hvalue =>
        split
        next => rfl
        next content rest htext =>
          -- The string is within the member, the member is within `text`, and escapes only shorten.
          have h1 := length_of_mem_members (hparts ▸ List.mem_cons_self : member ∈ _)
          have h2 : inside.length + 1 < member.afterKey.length := Member.length_of_value hvalue
          obtain ⟨source, hdenotes, rfl⟩ := exists_denotes_of_readText htext
          have h3 := hdenotes.length_le
          rw [h content.toList]
          simp only [List.length_append, List.length_cons] at h2
          omega
      next => rfl
    next => rfl

end Congr

/-- **Parsing looks into every embedded text**: none is turned away for its length. -/
theorem parse_eq_ok_iff_readWith {text : List Char} {value : Value} : parse text = .ok value ↔
    readWith (embedded? parse) depthLimit text = .ok value ∧ expectEnd text = .ok () := by
  rw [parse]
  -- The test for the length succeeds at each object, so it may be left out.
  rw [readWith_congr fun inside hinside => embedded?_congr fun content hcontent =>
    dif_pos (Nat.lt_trans hcontent hinside)]
  cases readWith (embedded? parse) depthLimit text with
  | error fault => simp
  | ok read =>
    rw [map_eq_ok_iff]
    constructor
    · rintro ⟨⟨⟩, hend, rfl⟩
      exact ⟨rfl, hend⟩
    · rintro ⟨hread, hend⟩
      exact ⟨(), hend, Except.ok.inj hread⟩

/-! ### Parsing is sound -/

/-- Whether a value is no container. -/
def Value.IsLeaf : Value → Prop
  | .array _ | .object _ => False
  | _ => True

/-- There is nothing embedded in a value that is no container. -/
theorem Value.IsLeaf.standsFor {value : Value} (h : value.IsLeaf) : value.StandsFor value := by
  cases value with
  | null => exact .null
  | bool b => exact .bool b
  | number n => exact .number n
  | text content => exact .text content
  | array _ => exact h.elim
  | object _ => exact h.elim

/-- A number is no container. -/
theorem isLeaf_of_readNumber {text : List Char} {value : Value} (h : readNumber text = .ok value) :
    value.IsLeaf := by
  unfold readNumber at h
  split at h
  next => cases h
  next =>
    split at h
    next => cases h
    next => exact Except.ok.inj h ▸ trivial

/-- Nor is anything else that starts with neither bracket nor brace. -/
theorem isLeaf_of_readScalar {text : List Char} {value : Value} (h : readScalar text = .ok value) :
    value.IsLeaf := by
  -- In the order of the cases: no text, the three words, a string, and the numbers.
  unfold readScalar at h
  split at h
  next => cases h
  next =>
    obtain ⟨_, -, rfl⟩ := map_eq_ok_iff.1 h
    trivial
  next =>
    obtain ⟨_, -, rfl⟩ := map_eq_ok_iff.1 h
    trivial
  next =>
    obtain ⟨_, -, rfl⟩ := map_eq_ok_iff.1 h
    trivial
  next =>
    obtain ⟨_, -, rfl⟩ := map_eq_ok_iff.1 h
    trivial
  next => exact isLeaf_of_readNumber h
  next =>
    split at h
    next => exact isLeaf_of_readNumber h
    next => cases h

section Sound

variable {reader : List Char → Except Fault Value}

/-- If what one reader takes the other takes as something that stands for it, then so it is for a
row of elements. -/
theorem exists_pairs_of_readEach {reader plain : List Char → Except Fault Value}
    (h : ∀ text value, reader text = .ok value →
      ∃ found, plain text = .ok found ∧ found.StandsFor value)
    {starts : List (List Char)} {values : List Value}
    (hread : readEach reader starts = .ok values) :
    ∃ pairs : List (Value × Value), values = pairs.map (·.2) ∧
      readEach plain starts = .ok (pairs.map (·.1)) ∧ ∀ pair ∈ pairs, pair.1.StandsFor pair.2 := by
  induction starts generalizing values with
  | nil =>
    obtain rfl := Except.ok.inj hread
    exact ⟨[], rfl, rfl, nofun⟩
  | cons start starts ih =>
    obtain ⟨value, more, hvalue, hmore, rfl⟩ := readEach_cons_eq_ok_iff.1 hread
    -- What `start` is read as stands for the first of `values`, and `ih` has the rest.
    obtain ⟨found, hfound, hstands⟩ := h start value hvalue
    obtain ⟨pairs, rfl, hpairs, hall⟩ := ih hmore
    exact ⟨(found, value) :: pairs, rfl, readEach_cons_eq_ok_iff.2 ⟨_, _, hfound, hpairs, rfl⟩,
      List.forall_mem_cons.2 ⟨hstands, hall⟩⟩

/-- And so it is for a row of members, of which the keys are the same. -/
theorem exists_pairs_of_readMembers {reader plain : List Char → Except Fault Value}
    (h : ∀ text value, reader text = .ok value →
      ∃ found, plain text = .ok found ∧ found.StandsFor value)
    {parts : List Member} {pairs : List (String × Value)}
    (hread : readMembers reader parts = .ok pairs) :
    ∃ members : List (String × Value × Value), pairs = members.map (fun m => (m.1, m.2.2)) ∧
      readMembers plain parts = .ok (members.map fun m => (m.1, m.2.1)) ∧
      members.map (·.1) = parts.map (·.key) ∧ ∀ m ∈ members, m.2.1.StandsFor m.2.2 := by
  -- Each member is paired with what stands for it, key by key.
  induction parts generalizing pairs with
  | nil =>
    obtain rfl := Except.ok.inj hread
    exact ⟨[], rfl, rfl, rfl, nofun⟩
  | cons part parts ih =>
    obtain ⟨start, value, more, hstart, hvalue, hmore, rfl⟩ := readMembers_cons_eq_ok_iff.1 hread
    obtain ⟨found, hfound, hstands⟩ := h start value hvalue
    obtain ⟨members, rfl, hmembers, hkeys, hall⟩ := ih hmore
    refine ⟨(part.key, found, value) :: members, rfl,
      readMembers_cons_eq_ok_iff.2 ⟨_, _, _, hstart, hfound, hmembers, rfl⟩, ?_,
      List.forall_mem_cons.2 ⟨hstands, hall⟩⟩
    rw [List.map_cons, List.map_cons, hkeys]

/-- A string is passed over up to the quote that it is read to. -/
theorem skipValue_quote {source rest : List Char} {content : String}
    (h : readText source = .ok (content, rest)) : skipValue [] ('"' :: source) = .ok rest ∧
      ∀ budget, readValue budget ('"' :: source) = .ok (.text content) := by
  have hdrop : dropBlanks ('"' :: source) = '"' :: source := dropBlanks_cons (by decide) source
  obtain ⟨written, hdenotes, rfl⟩ := exists_denotes_of_readText h
  refine ⟨?_, fun budget => ?_⟩
  · rw [skipValue_of_text hdrop (hdenotes.skipText_append rest), skipRest_nil]
  · rw [readValue_scalar (by simp [hdrop]) (by simp [hdrop]), hdrop]
    simp [readScalar, h, Except.map]

/-- An object that is read as the text it holds has that as its only member. -/
theorem readValue_of_readEmbedded {text inside : List Char} {member : Member} {others : List Member}
    {value : Value} {less : Nat} (hopen : dropBlanks text = '{' :: inside)
    (hparts : (members inside).parts = member :: others) (hkey : member.key = embeddedKey)
    (hread : readEmbedded reader member = .ok value) :
    ∃ content : String, reader content.toList = .ok value ∧
      readValue (less + 1) text = .ok (.object [(embeddedKey, .text content)]) := by
  obtain ⟨source, content, rest, behind, hstart, htext, hcontent, hclose⟩ :=
    readEmbedded_eq_ok_iff.1 hread
  obtain ⟨first, -, hfirst, hmembers⟩ := exists_of_parts hparts
  obtain ⟨hskip, hvalue⟩ := skipValue_quote htext
  -- The brace behind the string ends the object, so there is one member.
  have hrun : members inside = ⟨[member], .ok behind⟩ :=
    hmembers.trans ((membersFrom_eq_iff hfirst hstart hskip).2 hclose)
  refine ⟨content, hcontent, (readValue_curly hopen).2 ⟨less, _, rfl, rfl, ?_, behind, ?_⟩⟩
  · rw [hrun, readMembers_cons_eq_ok_iff]
    exact ⟨_, _, [], hstart, hvalue less, rfl, by rw [hkey]⟩
  · rw [hrun]

/-- What a reader reads that looks into embedded texts, a plain reader reads as something that
stands for it. -/
theorem exists_readValue_of_readWith
    (hreader : ∀ content value, reader content = .ok value → Holds content value) {budget : Nat}
    {text : List Char} {value : Value} (h : readWith (embedded? reader) budget text = .ok value) :
    ∃ plain, readValue budget text = .ok plain ∧ plain.StandsFor value := by
  -- The induction is on the budget, since the parts of a container are read with one less.
  induction budget using Nat.strong_induction_on generalizing text value with
  | _ budget ih =>
    by_cases hsquare : ∃ inside, dropBlanks text = '[' :: inside
    · obtain ⟨inside, hopen⟩ := hsquare
      obtain ⟨less, values, rfl, rfl, hvalues, hend⟩ := (readWith_square hopen).1 h
      have hless (text : List Char) (value : Value) := @ih less (Nat.lt_succ_self less) text value
      obtain ⟨pairs, rfl, hpairs, hall⟩ := exists_pairs_of_readEach hless hvalues
      exact ⟨_, (readValue_square hopen).2 ⟨less, _, rfl, rfl, hpairs, hend⟩, .array hall⟩
    · by_cases hcurly : ∃ inside, dropBlanks text = '{' :: inside
      · obtain ⟨inside, hopen⟩ := hcurly
        cases hspecial : embedded? reader (members inside) with
        | none =>
          obtain ⟨less, pairs, rfl, rfl, hpairs, hend⟩ := (readWith_curly hopen hspecial).1 h
          have hless (text : List Char) (value : Value) :=
            @ih less (Nat.lt_succ_self less) text value
          obtain ⟨parts, rfl, hplain, hkeys, hall⟩ := exists_pairs_of_readMembers hless hpairs
          refine ⟨_, (readValue_curly hopen).2 ⟨less, _, rfl, rfl, hplain, hend⟩, .object ?_ hall⟩
          -- The first key is that of the first part, which is not the one of a text.
          intro first hfirst
          obtain ⟨part, hpart, hkey⟩ := exists_head?_of_map_eq hkeys hfirst
          rw [← hkey]
          exact embedded?_eq_none_iff.1 hspecial part hpart
        -- The first key marks a text, so `reader` has read what the text says.
        | some read =>
          obtain ⟨⟨less, rfl⟩, rfl⟩ := (readWith_special hopen hspecial).1 h
          obtain ⟨member, others, hparts, hkey, hread⟩ := embedded?_eq_some_iff.1 hspecial
          obtain ⟨content, hcontent, hplain⟩ := readValue_of_readEmbedded hopen hparts hkey hread
          obtain ⟨token, plain, hderives, hfits, hstands⟩ := hreader _ _ hcontent
          exact ⟨_, hplain, .embedded hderives hfits hstands⟩
      · rw [readWith_scalar (not_exists.1 hsquare) (not_exists.1 hcurly)] at h
        refine ⟨value, ?_, (isLeaf_of_readScalar h).standsFor⟩
        rw [readValue_scalar (not_exists.1 hsquare) (not_exists.1 hcurly), h]

/-- **What is parsed, the text holds.** -/
theorem holds_of_parse {text : List Char} {value : Value} (h : parse text = .ok value) :
    Holds text value := by
  -- The induction is on the length: only a shorter text is parsed as an embedded one.
  induction hlength : text.length using Nat.strong_induction_on generalizing text value with
  | _ length ih =>
    subst hlength
    rw [parse] at h
    split at h
    next => cases h
    next read hread =>
      obtain ⟨⟨⟩, hend, rfl⟩ := map_eq_ok_iff.1 h
      obtain ⟨plain, hplain, hstands⟩ := exists_readValue_of_readWith (fun content value h => by
        split at h
        next hlt => exact ih _ hlt h rfl
        next => cases h) hread
      obtain ⟨⟨token, hderives⟩, hfits⟩ := readValue_expectEnd_iff.1 ⟨hplain, hend⟩
      exact ⟨token, plain, hderives, hfits, hstands⟩

end Sound

/-! ### Parsing is complete -/

section Complete

variable {budget : Nat} {text : List Char}

/-- What is read as an array starts with a bracket. -/
theorem exists_square_of_readValue {values : List Value}
    (h : readValue budget text = .ok (.array values)) :
    ∃ inside, dropBlanks text = '[' :: inside := by
  by_contra hsquare
  by_cases hcurly : ∃ inside, dropBlanks text = '{' :: inside
  · -- Behind a brace an object would be read.
    obtain ⟨inside, hopen⟩ := hcurly
    obtain ⟨-, pairs, -, hvalue, -⟩ := (readValue_curly hopen).1 h
    cases hvalue
  · rw [readValue_scalar (not_exists.1 hsquare) (not_exists.1 hcurly)] at h
    exact isLeaf_of_readScalar h

/-- What is read as an object starts with a brace. -/
theorem exists_curly_of_readValue {pairs : List (String × Value)}
    (h : readValue budget text = .ok (.object pairs)) :
    ∃ inside, dropBlanks text = '{' :: inside := by
  by_contra hcurly
  by_cases hsquare : ∃ inside, dropBlanks text = '[' :: inside
  · obtain ⟨inside, hopen⟩ := hsquare
    obtain ⟨-, values, -, hvalue, -⟩ := (readValue_square hopen).1 h
    cases hvalue
  · rw [readValue_scalar (not_exists.1 hsquare) (not_exists.1 hcurly)] at h
    exact isLeaf_of_readScalar h

/-- What is read as no container is written as none. -/
theorem readScalar_of_readValue {value : Value} (hleaf : value.IsLeaf)
    (h : readValue budget text = .ok value) : (∀ inside, dropBlanks text ≠ '[' :: inside) ∧
      (∀ inside, dropBlanks text ≠ '{' :: inside) ∧ readScalar (dropBlanks text) = .ok value := by
  have hsquare (inside : List Char) : dropBlanks text ≠ '[' :: inside := by
    intro hopen
    obtain ⟨-, values, -, rfl, -⟩ := (readValue_square hopen).1 h
    exact hleaf
  have hcurly (inside : List Char) : dropBlanks text ≠ '{' :: inside := by
    intro hopen
    obtain ⟨-, pairs, -, rfl, -⟩ := (readValue_curly hopen).1 h
    exact hleaf
  exact ⟨hsquare, hcurly, (readValue_scalar hsquare hcurly).symm.trans h⟩

/-- What is read as no container is read so by any reader. -/
theorem readWith_of_leaf {special : Run Member → Option (Except Fault Value)} {value : Value}
    (hleaf : value.IsLeaf) (h : readValue budget text = .ok value) :
    readWith special budget text = .ok value := by
  obtain ⟨hsquare, hcurly, hscalar⟩ := readScalar_of_readValue hleaf h
  exact (readWith_scalar hsquare hcurly).trans hscalar

/-- Elements that are read one by one as what they stand for are read so together. -/
theorem readEach_of_pairs {reader plain : List Char → Except Fault Value}
    {pairs : List (Value × Value)}
    (h : ∀ pair ∈ pairs, ∀ text, plain text = .ok pair.1 → reader text = .ok pair.2)
    {starts : List (List Char)} (hplain : readEach plain starts = .ok (pairs.map (·.1))) :
    readEach reader starts = .ok (pairs.map (·.2)) := by
  induction starts generalizing pairs with
  | nil =>
    obtain rfl := List.map_eq_nil_iff.1 (Except.ok.inj hplain).symm
    rfl
  | cons start starts ih =>
    obtain ⟨value, more, hvalue, hmore, hpairs⟩ := readEach_cons_eq_ok_iff.1 hplain
    obtain ⟨pair, others, rfl, rfl, rfl⟩ := List.map_eq_cons_iff.1 hpairs.symm
    obtain ⟨hfirst, hrest⟩ := List.forall_mem_cons.1 h
    exact readEach_cons_eq_ok_iff.2 ⟨_, _, hfirst start hvalue, ih hrest hmore, rfl⟩

/-- Members are read likewise, and their keys are those of the object. -/
theorem readMembers_of_pairs {reader plain : List Char → Except Fault Value}
    {members : List (String × Value × Value)}
    (h : ∀ m ∈ members, ∀ text, plain text = .ok m.2.1 → reader text = .ok m.2.2)
    {parts : List Member}
    (hplain : readMembers plain parts = .ok (members.map fun m => (m.1, m.2.1))) :
    readMembers reader parts = .ok (members.map fun m => (m.1, m.2.2)) ∧
      parts.map (·.key) = members.map (·.1) := by
  -- The same pairs, read from left to right.
  induction parts generalizing members with
  | nil =>
    obtain rfl := List.map_eq_nil_iff.1 (Except.ok.inj hplain).symm
    exact ⟨rfl, rfl⟩
  | cons part parts ih =>
    obtain ⟨start, value, more, hstart, hvalue, hmore, hmembers⟩ :=
      readMembers_cons_eq_ok_iff.1 hplain
    obtain ⟨⟨key, found, read⟩, others, rfl, hpair, rfl⟩ := List.map_eq_cons_iff.1 hmembers.symm
    obtain ⟨rfl, rfl⟩ := Prod.mk.inj hpair
    obtain ⟨hfirst, hrest⟩ := List.forall_mem_cons.1 h
    obtain ⟨hread, hkeys⟩ := ih hrest hmore
    refine ⟨readMembers_cons_eq_ok_iff.2 ⟨_, _, _, hstart, hfirst start hvalue, hread, rfl⟩, ?_⟩
    rw [List.map_cons, List.map_cons, hkeys]

/-- What is read as a string starts with a quote. -/
theorem exists_quote_of_readScalar {content : String}
    (h : readScalar text = .ok (.text content)) :
    ∃ source rest, text = '"' :: source ∧ readText source = .ok (content, rest) := by
  -- A number is read as no string.
  have hnumber {text : List Char} (h : readNumber text = .ok (.text content)) : False := by
    unfold readNumber at h
    split at h
    next => cases h
    next =>
      split at h
      next => cases h
      next => cases h
  unfold readScalar at h
  split at h
  next => cases h
  next =>
    obtain ⟨_, -, hvalue⟩ := map_eq_ok_iff.1 h
    cases hvalue
  next =>
    obtain ⟨_, -, hvalue⟩ := map_eq_ok_iff.1 h
    cases hvalue
  next =>
    obtain ⟨_, -, hvalue⟩ := map_eq_ok_iff.1 h
    cases hvalue
  next source =>
    obtain ⟨⟨found, rest⟩, htext, hvalue⟩ := map_eq_ok_iff.1 h
    obtain rfl := Value.text.inj hvalue
    exact ⟨source, rest, rfl, htext⟩
  next => exact (hnumber h).elim
  next =>
    split at h
    next => exact (hnumber h).elim
    next => cases h

/-- The value of a member starts behind the blanks. -/
theorem Member.dropBlanks_value {member : Member} {start : List Char}
    (h : member.value = .ok start) : dropBlanks start = start := by
  obtain ⟨behind, -, rfl⟩ := map_eq_ok_iff.1 h
  exact List.dropWhile_idempotent isBlank behind

/-- An object that has a text for its only member is read as the text it holds. -/
theorem embedded?_of_readValue {reader : List Char → Except Fault Value} {content : String}
    {value : Value} (hreader : reader content.toList = .ok value) {inside : List Char}
    (hopen : dropBlanks text = '{' :: inside)
    (h : readValue budget text = .ok (.object [(embeddedKey, .text content)])) :
    ∃ less, budget = less + 1 ∧ embedded? reader (members inside) = some (.ok value) := by
  obtain ⟨less, pairs, rfl, hpairs, hread, behind, hend⟩ := (readValue_curly hopen).1 h
  obtain rfl := Value.object.inj hpairs
  cases hparts : (members inside).parts with
  | nil =>
    rw [hparts] at hread
    cases hread
  | cons member others =>
    rw [hparts] at hread
    obtain ⟨start, found, more, hstart, hfound, hmore, hmembers⟩ :=
      readMembers_cons_eq_ok_iff.1 hread
    obtain ⟨hpair, rfl⟩ := List.cons.inj hmembers
    obtain ⟨hkey, rfl⟩ := Prod.mk.inj hpair
    -- The object that was read has one member, so the run has one part.
    obtain rfl : others = [] := by
      cases others with
      | nil => rfl
      | cons next others =>
        obtain ⟨_, _, _, -, -, -, hnil⟩ := readMembers_cons_eq_ok_iff.1 hmore
        cases hnil
    have hleaf : (Value.text content).IsLeaf := trivial
    obtain ⟨-, -, hscalar⟩ := readScalar_of_readValue hleaf hfound
    rw [Member.dropBlanks_value hstart] at hscalar
    obtain ⟨source, rest, rfl, htext⟩ := exists_quote_of_readScalar hscalar
    -- The object ends behind its only member, so the brace is behind the string.
    obtain ⟨first, -, hfirst, hrun⟩ := exists_of_parts hparts
    have hclose : dropBlanks rest = '}' :: behind := by
      refine (membersFrom_eq_iff hfirst hstart (skipValue_quote htext).1).1 ?_
      rw [← hrun, ← hparts, ← hend]
    refine ⟨less, rfl, embedded?_eq_some_iff.2 ⟨member, [], hparts, hkey, ?_⟩⟩
    exact readEmbedded_eq_ok_iff.2 ⟨source, content, rest, behind, hstart, htext, hreader, hclose⟩

/-- **What is read as something that stands for a value is read as that value** by a reader that
looks into embedded texts. -/
theorem Value.StandsFor.readWith_eq {plain value : Value} (h : plain.StandsFor value)
    (hplain : readValue budget text = .ok plain) :
    readWith (embedded? parse) budget text = .ok value := by
  induction h generalizing budget text with
  | null => exact readWith_of_leaf trivial hplain
  | bool b => exact readWith_of_leaf trivial hplain
  | number n => exact readWith_of_leaf trivial hplain
  | text content => exact readWith_of_leaf trivial hplain
  | @array pairs h ih =>
    obtain ⟨inside, hopen⟩ := exists_square_of_readValue hplain
    obtain ⟨less, values, rfl, hvalues, hread, hend⟩ := (readValue_square hopen).1 hplain
    obtain rfl := Value.array.inj hvalues
    have hpairs := readEach_of_pairs (fun pair hpair text => @ih pair hpair less text) hread
    exact (readWith_square hopen).2 ⟨less, _, rfl, rfl, hpairs, hend⟩
  -- The keys of the object are those of the parts, so the first of them marks no text.
  | @object members hfirst h ih =>
    obtain ⟨inside, hopen⟩ := exists_curly_of_readValue hplain
    obtain ⟨less, pairs, rfl, hvalues, hread, hend⟩ := (readValue_curly hopen).1 hplain
    obtain rfl := Value.object.inj hvalues
    obtain ⟨hmembers, hkeys⟩ :=
      readMembers_of_pairs (fun m hm text => @ih m hm less text) hread
    refine (readWith_curly hopen (embedded?_eq_none_iff.2 ?_)).2 ⟨less, _, rfl, rfl, hmembers, hend⟩
    intro part hpart
    obtain ⟨first, hmem, hkey⟩ := exists_head?_of_map_eq hkeys hpart
    rw [← hkey]
    exact hfirst first hmem
  -- `ih` is about any text, so it applies to what the string says.
  | @embedded content token plain value hderives hfits h ih =>
    obtain ⟨inside, hopen⟩ := exists_curly_of_readValue hplain
    obtain ⟨hread, hend⟩ := readValue_expectEnd_iff.2 ⟨⟨token, hderives⟩, hfits⟩
    have hparse : parse content.toList = .ok value := parse_eq_ok_iff_readWith.2 ⟨ih hread, hend⟩
    obtain ⟨less, rfl, hspecial⟩ := embedded?_of_readValue hparse hopen hplain
    exact (readWith_special hopen hspecial).2 ⟨⟨less, rfl⟩, rfl⟩

end Complete

/-! ### Whole texts -/

/-- **Parsing is recognition**: a text is parsed as a value if and only if it holds that value. -/
theorem parse_eq_ok_iff {text : List Char} {value : Value} :
    parse text = .ok value ↔ Holds text value := by
  refine ⟨holds_of_parse, ?_⟩
  rintro ⟨token, plain, hderives, hfits, hstands⟩
  obtain ⟨hread, hend⟩ := readValue_expectEnd_iff.2 ⟨⟨token, hderives⟩, hfits⟩
  exact parse_eq_ok_iff_readWith.2 ⟨hstands.readWith_eq hread, hend⟩

/-- A text that is derived is parsed as what the value stands for that it is derived for. -/
theorem Derives.parse_eq_ok_iff {element : Element} {text : List Char}
    (h : Derives (.element element) text) {value : Value} : parse text = .ok value ↔
      element.value.Fits depthLimit ∧ element.value.StandsFor value := by
  rw [Json.parse_eq_ok_iff]
  constructor
  · rintro ⟨token, plain, hderives, hfits, hstands⟩
    -- A text is derived for one value only, since it is read as one.
    obtain ⟨hread, -⟩ := h.readValue_eq_ok_iff
    obtain ⟨hread', -⟩ := hderives.readValue_eq_ok_iff
    obtain ⟨rfl, hfits'⟩ := (hread depthLimit plain).1 ((hread' depthLimit plain).2 ⟨rfl, hfits⟩)
    exact ⟨hfits', hstands⟩
  · rintro ⟨hfits, hstands⟩
    exact ⟨element.token, element.value, h, hfits, hstands⟩

/-! ### Objects -/

/-- The object that some members make. -/
def Value.ofEntries (entries : List Entry) : Value :=
  .object (entries.map fun entry => (entry.key, entry.value))

section Object

variable {text : List Char} {entries : List Entry}

/-- An object is parsed as what it stands for if the values of its members are within the limits. -/
theorem IsObject.parse_eq_ok_iff (h : IsObject text entries) {value : Value} :
    parse text = .ok value ↔ (∀ entry ∈ entries, entry.value.Fits (depthLimit - 1)) ∧
      (Value.ofEntries entries).StandsFor value := by
  obtain ⟨token, helement⟩ := h.exists_element
  rw [helement.parse_eq_ok_iff]
  refine and_congr_left fun _ => ?_
  constructor
  · rintro hfits entry hentry
    cases hfits with
    | object hall => exact hall (entry.key, entry.value) (List.mem_map_of_mem hentry)
  · intro hall
    -- The limit is that of the members and one more for the object.
    show Value.Fits (depthLimit - 1 + 1) _
    refine .object fun pair hpair => ?_
    obtain ⟨entry, hentry, rfl⟩ := List.mem_map.1 hpair
    exact hall entry hentry

/-- An object that does not start as one that holds a text stands for an object, if the values of
its members stand for anything. -/
theorem exists_standsFor_ofEntries (hfirst : ∀ first ∈ entries.head?, first.key ≠ embeddedKey)
    (h : ∀ entry ∈ entries, ∃ value, entry.value.StandsFor value) :
    ∃ members, (Value.ofEntries entries).StandsFor (.object members) := by
  -- Members are built next to what they stand for, as `StandsFor.object` asks for them.
  have hmembers : ∃ members : List (String × Value × Value),
      members.map (fun m => (m.1, m.2.1)) = entries.map (fun entry => (entry.key, entry.value)) ∧
        ∀ m ∈ members, m.2.1.StandsFor m.2.2 := by
    clear hfirst
    induction entries with
    | nil => exact ⟨[], rfl, nofun⟩
    | cons entry entries ih =>
      obtain ⟨⟨value, hvalue⟩, hrest⟩ := List.forall_mem_cons.1 h
      obtain ⟨members, hmembers, hall⟩ := ih hrest
      refine ⟨(entry.key, entry.value, value) :: members, ?_, List.forall_mem_cons.2 ⟨hvalue, hall⟩⟩
      rw [List.map_cons, List.map_cons, hmembers]
  obtain ⟨members, hmap, hall⟩ := hmembers
  rw [Value.ofEntries, ← hmap]
  refine ⟨_, .object (fun first hmem => ?_) hall⟩
  obtain ⟨entry, hentry, hpair⟩ := exists_head?_of_map_eq hmap hmem
  rw [← (Prod.mk.inj hpair).1]
  exact hfirst entry hentry

/-- If an object stands for anything, so do the values of its members. -/
theorem exists_standsFor_of_mem {value : Value} (h : (Value.ofEntries entries).StandsFor value)
    {entry : Entry} (hentry : entry ∈ entries) : ∃ value, entry.value.StandsFor value := by
  have hmem : (entry.key, entry.value) ∈ entries.map fun entry => (entry.key, entry.value) :=
    List.mem_map_of_mem hentry
  generalize hvalue : Value.ofEntries entries = plain at h
  cases h with
  | object hfirst hall =>
    rw [Value.object.inj hvalue] at hmem
    obtain ⟨m, hm, hpair⟩ := List.mem_map.1 hmem
    obtain ⟨-, hsame⟩ := Prod.mk.inj hpair
    exact ⟨m.2.2, hsame ▸ hall m hm⟩
  | @embedded content =>
    -- The only member of an object that holds a text is a string.
    rw [Value.object.inj hvalue] at hmem
    obtain ⟨-, hsame⟩ := Prod.mk.inj (List.mem_singleton.1 hmem)
    exact ⟨.text content, hsame ▸ .text content⟩
  | _ => cases hvalue

end Object

end Lineage.Json
