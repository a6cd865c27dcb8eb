import Lineage.Session.Numbering

/-!
# Ids tell elements apart

The id of a vertex is a stem, a colon and a number; the id of an edge is a few letters and a number.
Names and agent ids may hold any characters, colons and digits among them, so a stem cannot be read
off an id from its front. From its end it can: digits reach back exactly to the colon or to the last
of the letters, neither of which is a digit. A text that does not end in a digit is called
`Unnumbered`, and such a text with a number behind it determines both (`append_toString_inj`).

* `Telemetry.Message.vertexId_inj`: equal ids of vertices have equal stems and equal numbers.
* `Graph.Relation.edgeId_inj`: equal ids of edges have equal relations and equal numbers.
-/

namespace Lineage

open Lineage.Graph Telemetry

/-! ### A number behind a text -/

/-- A text that does not end in a digit. -/
def Unnumbered (text : String) : Prop :=
  ∀ c ∈ text.toList.getLast?, c.isDigit = false

/-- Numbers with the same digits are the same. -/
theorem toDigits_injective {m n : Nat} (h : Nat.toDigits 10 m = Nat.toDigits 10 n) : m = n := by
  -- Reading the digits gives the number back.
  have h' := congrArg (fun digits => Nat.ofDigitChars 10 digits 0) h
  simpa using h'

/-- Two texts with digits behind them are equal only if the longer text has nothing that the shorter
lacks: what it would have more would be digits. -/
theorem eq_nil_of_append_digits {front more digits : List Char}
    (hfront : ∀ c ∈ (front ++ more).getLast?, c.isDigit = false)
    (hdigits : ∀ c ∈ more ++ digits, c.isDigit = true) : more = [] := by
  rcases List.eq_nil_or_concat more with h | ⟨init, last, rfl⟩
  · exact h
  · -- The last of what there is more ends the longer text, and is among the digits of the
    -- shorter one.
    have hlast : last.isDigit = false := hfront last (by simp [← List.append_assoc])
    have hdigit : last.isDigit = true := hdigits last (by simp)
    rw [hlast] at hdigit
    exact absurd hdigit (by decide)

/-- A text that does not end in a digit can be told apart from the digits behind it. -/
theorem append_digits_inj {a b ds es : List Char}
    (ha : ∀ c ∈ a.getLast?, c.isDigit = false) (hb : ∀ c ∈ b.getLast?, c.isDigit = false)
    (hd : ∀ c ∈ ds, c.isDigit = true) (he : ∀ c ∈ es, c.isDigit = true) (h : a ++ ds = b ++ es) :
    a = b ∧ ds = es := by
  -- Either text is the longer one.
  rcases List.append_eq_append_iff.1 h with ⟨more, rfl, rfl⟩ | ⟨more, rfl, rfl⟩
  · obtain rfl := eq_nil_of_append_digits hb hd
    simp
  · obtain rfl := eq_nil_of_append_digits ha he
    simp

/-- A text that does not end in a digit and the number behind it are determined by the
two together. -/
theorem append_toString_inj {a b : String} {m n : Nat} (ha : Unnumbered a) (hb : Unnumbered b)
    (h : a ++ toString m = b ++ toString n) : a = b ∧ m = n := by
  have hlists := congrArg String.toList h
  simp only [String.toList_append, Nat.toString_eq_repr, Nat.toList_repr] at hlists
  -- A number is written in nothing but digits.
  have hdigits : ∀ (k : Nat), ∀ c ∈ Nat.toDigits 10 k, c.isDigit = true :=
    fun k c hc => Nat.isDigit_of_mem_toDigits (by decide) (by decide) hc
  obtain ⟨hstem, hnumber⟩ := append_digits_inj ha hb (hdigits m) (hdigits n) hlists
  exact ⟨String.toList_injective hstem, toDigits_injective hnumber⟩

/-! ### Ids of vertices -/

/-- A colon is no digit. -/
theorem unnumbered_append_colon (text : String) : Unnumbered (text ++ ":") := by
  intro c hc
  obtain rfl : c = ':' := by simpa [eq_comm] using hc
  rfl

/-- The id of a vertex determines the stem and the number in it. -/
theorem Telemetry.Message.vertexId_inj {message message' : Message} {m n : Nat}
    (h : message.vertexId m = message'.vertexId n) : message.stem = message'.stem ∧ m = n := by
  obtain ⟨hstem, hnumber⟩ :=
    append_toString_inj (unnumbered_append_colon message.stem)
      (unnumbered_append_colon message'.stem) h
  -- The colon is behind both stems, so it may be left out.
  have hlists := congrArg String.toList hstem
  simp only [String.toList_append] at hlists
  exact ⟨String.toList_injective (List.append_cancel_right hlists), hnumber⟩

/-! ### Ids of edges -/

/-- Nor is any letter of a relation. -/
theorem Graph.Relation.unnumbered_letters (relation : Relation) : Unnumbered relation.letters := by
  intro c hc
  -- Only the last letter counts.
  cases relation with
  | used =>
    obtain rfl : c = 'u' := by simpa [Relation.letters, eq_comm] using hc
    rfl
  | wasGeneratedBy =>
    obtain rfl : c = 'g' := by simpa [Relation.letters, eq_comm] using hc
    rfl
  | wasAssociatedWith =>
    obtain rfl : c = 'c' := by simpa [Relation.letters, eq_comm] using hc
    rfl
  | wasDerivedFrom =>
    obtain rfl : c = 'd' := by simpa [Relation.letters, eq_comm] using hc
    rfl

/-- Relations have different letters. -/
theorem Graph.Relation.letters_injective {relation relation' : Relation}
    (h : relation.letters = relation'.letters) : relation = relation' := by
  cases relation <;> cases relation' <;> first | rfl | exact absurd h (by decide)

/-- The id of an edge determines its relation and its number. -/
theorem Graph.Relation.edgeId_inj {relation relation' : Relation} {m n : Nat}
    (h : relation.edgeId m = relation'.edgeId n) : relation = relation' ∧ m = n := by
  obtain ⟨hletters, hnumber⟩ :=
    append_toString_inj relation.unnumbered_letters relation'.unnumbered_letters h
  exact ⟨Graph.Relation.letters_injective hletters, hnumber⟩

end Lineage
