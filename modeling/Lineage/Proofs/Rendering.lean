import Lineage.Proofs.Grammar
import Lineage.Proofs.Naturals

/-!
# What is written is derived

The compact form of a value is one of the texts that the grammar derives for it
(`Value.IsSpelt.derives_render`), and so whatever holds of all such texts holds of what is written:
it is passed over, it is read as the value, and an object falls into the members that were written
(`Value.isObject_compact`). Only the spelling of numbers has to be asked for, since a number is
written as it was spelt (`Value.IsSpelt`).

What is written holds no control characters, and so no line end
(`Value.IsSpelt.isPrintable_render`).
-/

namespace Lineage.Json

/-! ### Strings -/

/-- A character is denoted by what is written for it. -/
theorem Escapes.denotes_append {c : Char} {written source content : List Char}
    (h : Escapes c written) (hrest : Denotes source content) :
    Denotes (written ++ source) (c :: content) := by
  cases h with
  | short hletter => exact .short hletter hrest
  | unit hcontrol =>
    -- The number of a control character is far below those of surrogates.
    have hlow : isLowSurrogate c.toNat = false := by
      rw [isLowSurrogate, Bool.and_eq_false_iff, decide_eq_false_iff_not]
      omega
    have hhigh : isHighSurrogate c.toNat = false := by
      rw [isHighSurrogate, Bool.and_eq_false_iff, decide_eq_false_iff_not]
      omega
    have hdenotes := Denotes.unit (codeUnit?_hexChar hcontrol) hlow hhigh hrest
    rwa [Char.ofNat_toNat] at hdenotes
  | plain hquote hbackslash hcontrol => exact .plain hquote hbackslash hcontrol hrest

/-- So a text is denoted by what is written for its characters. -/
theorem denotes_flatMap_escapeChar (content : List Char) :
    Denotes (content.flatMap escapeChar) content := by
  induction content with
  | nil => exact .nil
  | cons c content ih => exact (escapes_escapeChar c).denotes_append ih

/-- A quoted text is the token of a string. -/
theorem derives_quote (content : String) : Derives (.value (.text content)) (quote content) := by
  have htext := Derives.text (denotes_flatMap_escapeChar content.toList)
  rwa [String.ofList_toList] at htext

/-! ### Control characters -/

/-- Whether a text can stand on one line: it holds no control characters. -/
def IsPrintable (text : List Char) : Prop :=
  ∀ c ∈ text, isControl c = false

/-- Two printable texts make one. -/
theorem IsPrintable.append {front back : List Char} (h : IsPrintable front)
    (h' : IsPrintable back) : IsPrintable (front ++ back) :=
  List.forall_mem_append.2 ⟨h, h'⟩

/-- A character that is none of control may stand in front. -/
theorem IsPrintable.cons {c : Char} {text : List Char} (hc : isControl c = false)
    (h : IsPrintable text) : IsPrintable (c :: text) :=
  List.forall_mem_cons.2 ⟨hc, h⟩

/-- A quoted text is printable, whatever the text is: escapes are. -/
theorem isPrintable_quote (content : String) : IsPrintable (quote content) := by
  refine .cons rfl (.append ?_ (.cons rfl nofun))
  intro c hc
  -- `c` stands in what is written for some `d`.
  obtain ⟨d, -, hd⟩ := List.mem_flatMap.1 hc
  exact (escapes_escapeChar d).isControl_eq c hd

/-- No character of a number is one of control. -/
theorem Number.IsNumeral.isControl_eq {c : Char} (h : IsNumeral c) : isControl c = false := by
  rcases h with hdigit | rfl | rfl | rfl | rfl | rfl
  · -- The digits stand behind all control characters.
    rw [isDigit, Bool.and_eq_true, decide_eq_true_eq, Char.le_def] at hdigit
    rw [isControl, decide_eq_false_iff_not, Nat.not_lt]
    exact Nat.le_trans (by decide) (UInt32.le_iff_toNat_le.1 hdigit.1)
  all_goals rfl

/-- So numbers are printable. -/
theorem Number.IsSpelt.isPrintable {number : Number} (h : number.IsSpelt) :
    IsPrintable number.spelling :=
  fun _ hc => (h.isNumeral_of_mem hc).isControl_eq

/-! ### Values -/

namespace Value

/-- Whether all numbers in a value are spelt as the grammar allows. -/
inductive IsSpelt : Value → Prop
  | null : IsSpelt .null
  | bool (value : Bool) : IsSpelt (.bool value)
  | number {number : Number} (hspelt : number.IsSpelt) : IsSpelt (.number number)
  | text (content : String) : IsSpelt (.text content)
  | array {elements : List Value} (h : ∀ value ∈ elements, IsSpelt value) :
      IsSpelt (.array elements)
  | object {members : List (String × Value)} (h : ∀ member ∈ members, IsSpelt member.2) :
      IsSpelt (.object members)

/-- A natural number is spelt as the grammar allows. -/
theorem isSpelt_ofNat (n : Nat) : (ofNat n).IsSpelt :=
  .number (Number.isSpelt_ofNat n)

/-- So is a catalog of texts, in which there are no numbers. -/
theorem isSpelt_ofTexts (catalog : Catalog String) : (ofTexts catalog).IsSpelt := by
  refine .object fun member hmember => ?_
  obtain ⟨entry, -, rfl⟩ := List.mem_map.1 hmember
  exact .text entry.2

/-- A value with the token that is written for it. -/
def element (value : Value) : Element :=
  ⟨value.render, value⟩

/-- A member of an object with the token that is written for its value. -/
def entry (member : String × Value) : Entry :=
  ⟨member.2.element, member.1⟩

/-- A token may stand without blanks around it. -/
theorem derives_element {value : Value} (h : Derives (.value value) value.render) :
    Derives (.element value.element) value.render := by
  have helement : Derives (.element value.element) ([] ++ (value.render ++ [])) :=
    .element nofun h nofun
  rwa [List.nil_append, List.append_nil] at helement

/-- So may a key and its colon. -/
theorem derives_entry {member : String × Value} (h : Derives (.value member.2) member.2.render) :
    Derives (.member (entry member)) (quote member.1 ++ ':' :: member.2.render) := by
  have hmember : Derives (.member (entry member))
      ([] ++ '"' :: (member.1.toList.flatMap escapeChar ++ '"' ::
        ([] ++ ':' :: member.2.render))) :=
    .member nofun (denotes_flatMap_escapeChar member.1.toList) nofun (derives_element h)
  simpa [quote] using hmember

/-- What is written behind the bracket of an array that is not empty. -/
theorem exists_derives_elements {first : Value} {more : List Value}
    (h : ∀ value ∈ first :: more, Derives (.value value) value.render) :
    ∃ inside, Derives (.elements ((first :: more).map element)) inside ∧
      first.render ++ renderElements more = inside ++ [']'] := by
  -- By the elements behind the first one, each of which has a comma in front of it.
  induction more generalizing first with
  | nil =>
    refine ⟨first.render, .lastElement (derives_element (h first List.mem_cons_self)), ?_⟩
    rw [renderElements]
  | cons next more ih =>
    obtain ⟨hfirst, hmore⟩ := List.forall_mem_cons.1 h
    obtain ⟨inside, hinside, htext⟩ := ih hmore
    refine ⟨first.render ++ ',' :: inside, .elements (derives_element hfirst) hinside, ?_⟩
    rw [renderElements, htext, List.append_assoc]
    rfl

/-- What is written behind the brace of an object that is not empty. -/
theorem exists_derives_members {first : String × Value} {more : List (String × Value)}
    (h : ∀ member ∈ first :: more, Derives (.value member.2) member.2.render) :
    ∃ inside, Derives (.members ((first :: more).map entry)) inside ∧
      quote first.1 ++ ':' :: (first.2.render ++ renderMembers more) = inside ++ ['}'] := by
  induction more generalizing first with
  | nil =>
    refine ⟨quote first.1 ++ ':' :: first.2.render,
      .lastMember (derives_entry (h first List.mem_cons_self)), ?_⟩
    rw [renderMembers, List.append_assoc]
    rfl
  -- As with elements, `ih` is about the member behind the comma.
  | cons next more ih =>
    obtain ⟨hfirst, hmore⟩ := List.forall_mem_cons.1 h
    obtain ⟨inside, hinside, htext⟩ := ih hmore
    refine ⟨(quote first.1 ++ ':' :: first.2.render) ++ ',' :: inside,
      .members (derives_entry hfirst) hinside, ?_⟩
    rw [renderMembers, htext]
    simp

/-- What is written for an object is its members between braces. -/
theorem exists_derives_object {members : List (String × Value)}
    (h : ∀ member ∈ members, Derives (.value member.2) member.2.render) :
    ∃ inside, Derives (.members (members.map entry)) inside ∧
      (object members).render = '{' :: (inside ++ ['}']) := by
  cases members with
  | nil => exact ⟨[], .noMembers nofun, by rw [render]; rfl⟩
  | cons first more =>
    obtain ⟨inside, hinside, htext⟩ := exists_derives_members h
    exact ⟨inside, hinside, by rw [render, htext]⟩

/-- The members that are written are the members. -/
theorem map_entry (members : List (String × Value)) :
    (members.map entry).map (fun entry => (entry.key, entry.value)) = members := by
  rw [List.map_map]
  exact List.map_id members

/-- **What is written is derived.** -/
theorem IsSpelt.derives_render {value : Value} (h : value.IsSpelt) :
    Derives (.value value) value.render := by
  induction h with
  | null =>
    rw [render]
    exact .null
  | bool value =>
    cases value with
    | true =>
      rw [render]
      exact .isTrue
    | false =>
      rw [render]
      exact .isFalse
  | number hspelt =>
    rw [render]
    exact .number hspelt
  | text content =>
    rw [render]
    exact derives_quote content
  | @array elements h ih =>
    have hvalues : (elements.map element).map (·.value) = elements := by
      rw [List.map_map]
      exact List.map_id elements
    -- Without a first element there is no inside to go on from.
    cases elements with
    | nil =>
      rw [render]
      have hinside : Derives (.elements []) [] := .noElements nofun
      exact .array hinside
    | cons first more =>
      obtain ⟨inside, hinside, htext⟩ := exists_derives_elements ih
      have harray := Derives.array hinside
      rwa [hvalues, ← htext, ← render] at harray
  -- The members of the grammar are those of the value, by `map_entry`.
  | @object members h ih =>
    obtain ⟨inside, hinside, htext⟩ := exists_derives_object ih
    have hobject := Derives.object hinside
    rwa [map_entry, ← htext] at hobject

/-- **An object is written with just its members.** -/
theorem isObject_compact {members : List (String × Value)}
    (h : ∀ member ∈ members, member.2.IsSpelt) :
    IsObject (object members).compact.toList (members.map entry) := by
  obtain ⟨inside, hinside, htext⟩ :=
    exists_derives_object fun member hmember => (h member hmember).derives_render
  refine ⟨[], inside, [], nofun, hinside, nofun, ?_⟩
  rw [compact, String.toList_ofList, htext, List.nil_append, List.append_nil]

/-- Printable elements make a printable array. -/
theorem isPrintable_renderElements {elements : List Value}
    (h : ∀ value ∈ elements, IsPrintable value.render) : IsPrintable (renderElements elements) := by
  induction elements with
  | nil =>
    rw [renderElements]
    exact .cons rfl nofun
  | cons first more ih =>
    obtain ⟨hfirst, hmore⟩ := List.forall_mem_cons.1 h
    rw [renderElements]
    exact .cons rfl (hfirst.append (ih hmore))

/-- Printable members make a printable object. -/
theorem isPrintable_renderMembers {members : List (String × Value)}
    (h : ∀ member ∈ members, IsPrintable member.2.render) :
    IsPrintable (renderMembers members) := by
  induction members with
  | nil =>
    rw [renderMembers]
    exact .cons rfl nofun
  | cons first more ih =>
    obtain ⟨hfirst, hmore⟩ := List.forall_mem_cons.1 h
    rw [renderMembers]
    exact .cons rfl ((isPrintable_quote first.1).append (.cons rfl (hfirst.append (ih hmore))))

/-- **What is written holds no control characters.** -/
theorem IsSpelt.isPrintable_render {value : Value} (h : value.IsSpelt) :
    IsPrintable value.render := by
  induction h with
  | null =>
    rw [render]
    exact .cons rfl (.cons rfl (.cons rfl (.cons rfl nofun)))
  | bool value =>
    cases value with
    | true =>
      rw [render]
      exact .cons rfl (.cons rfl (.cons rfl (.cons rfl nofun)))
    | false =>
      rw [render]
      exact .cons rfl (.cons rfl (.cons rfl (.cons rfl (.cons rfl nofun))))
  -- A number is written as it is spelt.
  | number hspelt =>
    rw [render]
    exact hspelt.isPrintable
  | text content =>
    rw [render]
    exact isPrintable_quote content
  -- Brackets and commas are no control characters.
  | @array elements h ih =>
    cases elements with
    | nil =>
      rw [render]
      exact .cons rfl (.cons rfl nofun)
    | cons first more =>
      obtain ⟨hfirst, hmore⟩ := List.forall_mem_cons.1 ih
      rw [render]
      exact .cons rfl (hfirst.append (isPrintable_renderElements hmore))
  | @object members h ih =>
    cases members with
    | nil =>
      rw [render]
      exact .cons rfl (.cons rfl nofun)
    | cons first more =>
      obtain ⟨hfirst, hmore⟩ := List.forall_mem_cons.1 ih
      rw [render]
      exact .cons rfl ((isPrintable_quote first.1).append
        (.cons rfl (hfirst.append (isPrintable_renderMembers hmore))))

end Value

end Lineage.Json
