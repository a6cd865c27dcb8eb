import Lineage.Json.Value
import Lineage.Proofs.Passing
import Lineage.Proofs.Tokens
import Mathlib.Data.List.Forall2

/-!
# The grammar of JSON

Which texts are values, said without reading them. `Derives` has one rule for each form that a
phrase of the grammar may take; what it derives is kept with the text: the value that a token stands
for, the elements of an array with their tokens, and the members of an object with their keys.
Numbers may have any size here and nesting any depth.

Passing over is exact on all that the grammar derives (`Derives.skipped`), and cutting an array or
an object gives its parts, one for each element or member, each starting with its own token
(`Derives.elements_append`, `Derives.members_append`).
-/

namespace Lineage.Json

/-- A value with the token that stands for it. -/
structure Element where
  token : List Char
  value : Value

/-- A member of an object: its key is what the string in front of the colon denotes. -/
structure Entry extends Element where
  key : String

/-- What a text may be taken for. -/
inductive Phrase
  | value (value : Value)
  /-- A value with blanks around it. -/
  | element (element : Element)
  /-- The inside of an array. -/
  | elements (elements : List Element)
  | member (entry : Entry)
  /-- The inside of an object. -/
  | members (entries : List Entry)

/-- **The grammar.** -/
inductive Derives : Phrase → List Char → Prop
  | null : Derives (.value .null) ['n', 'u', 'l', 'l']
  | isTrue : Derives (.value (.bool true)) ['t', 'r', 'u', 'e']
  | isFalse : Derives (.value (.bool false)) ['f', 'a', 'l', 's', 'e']
  | number {number : Number} (hspelt : number.IsSpelt) :
      Derives (.value (.number number)) number.spelling
  | text {source content : List Char} (hsource : Denotes source content) :
      Derives (.value (.text (String.ofList content))) ('"' :: (source ++ ['"']))
  | array {elements : List Element} {inside : List Char}
      (hinside : Derives (.elements elements) inside) :
      Derives (.value (.array (elements.map (·.value)))) ('[' :: (inside ++ [']']))
  | object {entries : List Entry} {inside : List Char}
      (hinside : Derives (.members entries) inside) :
      Derives (.value (.object (entries.map fun entry => (entry.key, entry.value))))
        ('{' :: (inside ++ ['}']))
  | element {element : Element} {before after : List Char} (hbefore : AreBlanks before)
      (htoken : Derives (.value element.value) element.token) (hafter : AreBlanks after) :
      Derives (.element element) (before ++ (element.token ++ after))
  | noElements {blanks : List Char} (hblanks : AreBlanks blanks) : Derives (.elements []) blanks
  | lastElement {element : Element} {text : List Char} (hlast : Derives (.element element) text) :
      Derives (.elements [element]) text
  | elements {first next : Element} {more : List Element} {text inside : List Char}
      (hfirst : Derives (.element first) text) (hmore : Derives (.elements (next :: more)) inside) :
      Derives (.elements (first :: next :: more)) (text ++ ',' :: inside)
  | member {entry : Entry} {before source between text : List Char} (hbefore : AreBlanks before)
      (hkey : Denotes source entry.key.toList) (hbetween : AreBlanks between)
      (hvalue : Derives (.element entry.toElement) text) :
      Derives (.member entry) (before ++ '"' :: (source ++ '"' :: (between ++ ':' :: text)))
  | noMembers {blanks : List Char} (hblanks : AreBlanks blanks) : Derives (.members []) blanks
  | lastMember {entry : Entry} {text : List Char} (hlast : Derives (.member entry) text) :
      Derives (.members [entry]) text
  | members {first next : Entry} {more : List Entry} {text inside : List Char}
      (hfirst : Derives (.member first) text) (hmore : Derives (.members (next :: more)) inside) :
      Derives (.members (first :: next :: more)) (text ++ ',' :: inside)

/-- Whether a text is an object of some members. -/
def IsObject (text : List Char) (entries : List Entry) : Prop :=
  ∃ before inside after, AreBlanks before ∧ Derives (.members entries) inside ∧ AreBlanks after ∧
    text = before ++ ('{' :: (inside ++ ['}']) ++ after)

/-! ### What follows a token -/

/-- Whether a text does not go on with a token in front of it: only a number can be gone on with. -/
def EndsToken (value : Value) (rest : List Char) : Prop :=
  ∀ number, value = .number number → EndsNumber rest

/-- What goes on with no number goes on with no token. -/
theorem EndsNumber.endsToken {rest : List Char} (h : EndsNumber rest) (value : Value) :
    EndsToken value rest :=
  fun _ _ => h

/-- A number may be the last thing in a text. -/
theorem endsNumber_nil : EndsNumber [] :=
  ⟨fun _ h => (nomatch h), fun _ h => (nomatch h), fun _ h => (nomatch h)⟩

/-- It goes on with digits, a point or the mark of an exponent, and with nothing else. -/
theorem endsNumber_cons {c : Char} (hdigit : isDigit c = false) (hpoint : c ≠ '.')
    (hsmall : c ≠ 'e') (hlarge : c ≠ 'E') (rest : List Char) : EndsNumber (c :: rest) where
  digit := by
    rintro d hd
    obtain rfl : c = d := Option.some.inj hd
    exact hdigit
  point := by
    rintro d hd
    obtain rfl : c = d := Option.some.inj hd
    exact hpoint
  mark := by
    rintro d hd
    obtain rfl : c = d := Option.some.inj hd
    exact ⟨hsmall, hlarge⟩

/-- A number ends before a comma, -/
theorem endsNumber_comma (rest : List Char) : EndsNumber (',' :: rest) :=
  endsNumber_cons (by decide) (by decide) (by decide) (by decide) rest

/-- before a bracket, -/
theorem endsNumber_square (rest : List Char) : EndsNumber (']' :: rest) :=
  endsNumber_cons (by decide) (by decide) (by decide) (by decide) rest

/-- and before a brace. -/
theorem endsNumber_curly (rest : List Char) : EndsNumber ('}' :: rest) :=
  endsNumber_cons (by decide) (by decide) (by decide) (by decide) rest

/-- It also ends before blanks. -/
theorem EndsNumber.blanks_append {blanks rest : List Char} (hblanks : AreBlanks blanks)
    (h : EndsNumber rest) : EndsNumber (blanks ++ rest) := by
  cases blanks with
  | nil => exact h
  | cons c blanks =>
    have hc : c = ' ' ∨ c = '\t' ∨ c = '\n' ∨ c = '\r' := by
      have hblank := hblanks c List.mem_cons_self
      simpa [isBlank, or_assoc] using hblank
    rcases hc with rfl | rfl | rfl | rfl <;>
      exact endsNumber_cons (by decide) (by decide) (by decide) (by decide) _

/-- Nothing but blanks goes on with no number. -/
theorem AreBlanks.endsNumber {blanks : List Char} (h : AreBlanks blanks) : EndsNumber blanks := by
  have hends := endsNumber_nil.blanks_append h
  rwa [List.append_nil] at hends

/-! ### Where tokens start -/

/-- A number starts with its sign or with a digit. -/
theorem Number.IsSpelt.exists_cons {number : Number} (h : number.IsSpelt) :
    ∃ first more, number.spelling = first :: more ∧ (first = '-' ∨ isDigit first = true) := by
  rw [Number.spelling_eq]
  cases number.negative with
  | true => exact ⟨'-', _, rfl, .inl rfl⟩
  | false =>
    obtain ⟨first, more, hwhole, hfirst⟩ := h.whole.exists_cons
    rw [hwhole]
    exact ⟨first, _, rfl, .inr hfirst⟩

/-- A digit is no blank. -/
theorem isBlank_of_isDigit {c : Char} (h : isDigit c = true) : isBlank c = false := by
  cases hblank : isBlank c with
  | false => rfl
  | true =>
    have hc : c = ' ' ∨ c = '\t' ∨ c = '\n' ∨ c = '\r' := by simpa [isBlank, or_assoc] using hblank
    rcases hc with rfl | rfl | rfl | rfl <;> exact absurd h (by decide)

/-- A token starts with something that is neither blank nor the end of an array. -/
theorem Derives.exists_cons {value : Value} {token : List Char} (h : Derives (.value value) token) :
    ∃ first more, token = first :: more ∧ isBlank first = false ∧ first ≠ ']' := by
  cases h with
  | null => exact ⟨_, _, rfl, by decide, by decide⟩
  | isTrue => exact ⟨_, _, rfl, by decide, by decide⟩
  | isFalse => exact ⟨_, _, rfl, by decide, by decide⟩
  | number hspelt =>
    obtain ⟨first, more, hspelling, hfirst⟩ := hspelt.exists_cons
    refine ⟨first, more, hspelling, ?_⟩
    rcases hfirst with rfl | hdigit
    · exact ⟨by decide, by decide⟩
    · -- A digit is not the bracket either.
      refine ⟨isBlank_of_isDigit hdigit, ?_⟩
      rintro rfl
      exact absurd hdigit (by decide)
  | text hsource => exact ⟨_, _, rfl, by decide, by decide⟩
  | array hinside => exact ⟨_, _, rfl, by decide, by decide⟩
  | object hinside => exact ⟨_, _, rfl, by decide, by decide⟩

/-- What starts with no blank is left as it is. -/
theorem dropBlanks_cons {c : Char} (h : isBlank c = false) (rest : List Char) :
    dropBlanks (c :: rest) = c :: rest :=
  List.dropWhile_cons_of_neg (Bool.eq_false_iff.1 h)

/-- So a token is left as it is. -/
theorem Derives.dropBlanks_eq {value : Value} {token : List Char} (h : Derives (.value value) token)
    (rest : List Char) : dropBlanks (token ++ rest) = token ++ rest := by
  obtain ⟨first, more, rfl, hblank, -⟩ := h.exists_cons
  exact dropBlanks_cons hblank _

/-- The inside of an array that is not empty starts with a token. -/
theorem Derives.elements_start {first : Element} {more : List Element} {inside : List Char}
    (h : Derives (.elements (first :: more)) inside) (rest : List Char) :
    ∃ c behind, dropBlanks (inside ++ rest) = c :: behind ∧ c ≠ ']' := by
  -- Whatever stands behind, the first element is in front.
  have hfirst : ∃ text behind, Derives (.element first) text ∧ inside = text ++ behind := by
    cases h with
    | lastElement hlast => exact ⟨inside, [], hlast, (List.append_nil _).symm⟩
    | elements hfirst hmore => exact ⟨_, _, hfirst, rfl⟩
  obtain ⟨text, behind, helement, rfl⟩ := hfirst
  cases helement with
  | element hbefore htoken hafter =>
    obtain ⟨c, more, htext, -, hc⟩ := htoken.exists_cons
    rw [List.append_assoc, List.append_assoc, dropBlanks_append hbefore, List.append_assoc,
      htoken.dropBlanks_eq, htext]
    exact ⟨c, _, rfl, hc⟩

/-- The inside of an object that is not empty starts with its first key. -/
theorem Derives.members_start {first : Entry} {more : List Entry} {inside : List Char}
    (h : Derives (.members (first :: more)) inside) (rest : List Char) :
    ∃ key afterKey, dropBlanks (inside ++ rest) = '"' :: key ∧
      readText key = .ok (first.key, afterKey) := by
  -- The text starts with that of its first member, whether others follow or not.
  have hfirst : ∃ text behind, Derives (.member first) text ∧ inside = text ++ behind := by
    cases h with
    | lastMember hlast => exact ⟨inside, [], hlast, (List.append_nil _).symm⟩
    | members hfirst hmore => exact ⟨_, _, hfirst, rfl⟩
  obtain ⟨text, behind, hmember, rfl⟩ := hfirst
  cases hmember with
  | @member _ before source between text hbefore hkey hbetween hvalue =>
    refine ⟨source ++ '"' :: (between ++ ':' :: (text ++ (behind ++ rest))), _, ?_,
      (hkey.readText_append _).trans (by rw [String.ofList_toList])⟩
    rw [List.append_assoc, List.append_assoc, dropBlanks_append hbefore]
    simp [dropBlanks_cons (c := '"') (by decide)]

/-- The token of every member is that of a value. -/
theorem Derives.of_mem {entries : List Entry} {inside : List Char}
    (h : Derives (.members entries) inside) {entry : Entry} (hentry : entry ∈ entries) :
    Derives (.value entry.value) entry.token := by
  -- A member ends in an element, and an element has a token.
  have hmember {entry : Entry} {text : List Char} (h : Derives (.member entry) text) :
      Derives (.value entry.value) entry.token := by
    cases h with
    | member hbefore hkey hbetween hvalue =>
      cases hvalue with
      | element hbefore htoken hafter => exact htoken
  induction entries generalizing inside with
  | nil => cases hentry
  | cons first more ih =>
    cases h with
    | lastMember hlast =>
      obtain rfl := List.mem_singleton.1 hentry
      exact hmember hlast
    | members hfirst hmore =>
      rcases List.mem_cons.1 hentry with rfl | hrest
      · exact hmember hfirst
      · exact ih hmore hrest

/-! ### Passing over -/

/-- A word is read up to its end. -/
theorem readWord_append (letters rest : List Char) :
    readWord letters (letters ++ rest) = .ok rest := by
  induction letters with
  | nil => rfl
  | cons letter letters ih => rw [List.cons_append, readWord, if_pos rfl, ih]

/-- A number is told by its first character. -/
theorem skipScalar_number {first : Char} (h : first = '-' ∨ isDigit first = true)
    (rest : List Char) : skipScalar (first :: rest) = Number.skip (first :: rest) := by
  rcases h with rfl | hdigit
  · rfl
  · -- The reader asks for the letters and the quote before it asks for digits.
    have hne : ∀ c, isDigit c = false → first ≠ c := by
      rintro c hc rfl
      exact absurd hdigit (Bool.eq_false_iff.1 hc)
    rw [skipScalar, if_pos hdigit]
    · exact hne 'n' (by decide)
    · exact hne 't' (by decide)
    · exact hne 'f' (by decide)
    · exact hne '"' (by decide)
    · exact hne '-' (by decide)

/-- A number is passed over up to what cannot go on with it. -/
theorem Number.IsSpelt.skipValue_append {number : Number} (h : number.IsSpelt) {rest : List Char}
    (hrest : EndsNumber rest) (opened : List Bracket) :
    skipValue opened (number.spelling ++ rest) = skipRest opened rest := by
  obtain ⟨first, more, hspelling, hfirst⟩ := h.exists_cons
  have hskip : skipScalar (number.spelling ++ rest) = .ok rest := by
    rw [hspelling, List.cons_append, skipScalar_number hfirst, ← List.cons_append, ← hspelling,
      Number.skip, h.read_append hrest]
  have hdrop := (Derives.number h).dropBlanks_eq rest
  rw [hspelling] at hdrop hskip ⊢
  -- Its first character opens neither array nor object.
  refine skipValue_of_scalar hdrop ?_ ?_ hskip
  · rintro rfl
    exact absurd hfirst (by decide)
  · rintro rfl
    exact absurd hfirst (by decide)

/-- How a phrase is passed over, whatever brackets are open around it. -/
def Phrase.Skipped : Phrase → List Char → Prop
  | value v, token =>
    ∀ opened rest, EndsToken v rest → skipValue opened (token ++ rest) = skipRest opened rest
  | element _, text => ∀ opened rest, EndsNumber rest →
      ∃ after, AreBlanks after ∧ skipValue opened (text ++ rest) = skipRest opened (after ++ rest)
  | elements [], _ => True
  | elements (_ :: _), inside =>
      ∀ opened rest, skipValue (.square :: opened) (inside ++ ']' :: rest) = skipRest opened rest
  | member _, text => ∀ opened rest, EndsNumber rest → ∃ start after, AreBlanks after ∧
      skipKey (text ++ rest) = .ok start ∧ skipValue opened start = skipRest opened (after ++ rest)
  | members [], _ => True
  | members (_ :: _), inside => ∀ opened rest, ∃ start,
      skipKey (inside ++ '}' :: rest) = .ok start ∧
        skipValue (.curly :: opened) start = skipRest opened rest

/-- **What the grammar derives is passed over**, and nothing behind it. -/
theorem Derives.skipped {phrase : Phrase} {text : List Char} (h : Derives phrase text) :
    phrase.Skipped text := by
  -- The induction is on the derivation: what is open around a phrase is left to those who ask.
  induction h with
  | null =>
    rintro opened rest -
    exact skipValue_of_scalar (dropBlanks_cons (by decide) _) (by decide) (by decide)
      (readWord_append _ rest)
  | isTrue =>
    rintro opened rest -
    exact skipValue_of_scalar (dropBlanks_cons (by decide) _) (by decide) (by decide)
      (readWord_append _ rest)
  | isFalse =>
    rintro opened rest -
    exact skipValue_of_scalar (dropBlanks_cons (by decide) _) (by decide) (by decide)
      (readWord_append _ rest)
  | number hspelt =>
    intro opened rest hrest
    exact hspelt.skipValue_append (hrest _ rfl) opened
  | text hsource =>
    rintro opened rest -
    rw [List.cons_append, List.append_assoc]
    exact skipValue_of_text (dropBlanks_cons (by decide) _) (hsource.skipText_append rest)
  | @array elements inside hinside ih =>
    rintro opened rest -
    rw [List.cons_append, List.append_assoc]
    have hopen := dropBlanks_cons (c := '[') (by decide) (inside ++ ']' :: rest)
    cases elements with
    | nil =>
      cases hinside with
      | noElements hblanks => exact skipValue_of_noElements hopen (dropBlanks_append hblanks _)
    | cons first more =>
      -- The bracket is left open, and the inside closes it.
      obtain ⟨c, behind, hstart, hc⟩ := hinside.elements_start (']' :: rest)
      exact (skipValue_of_elements hopen hstart hc).trans (ih opened rest)
  | @object entries inside hinside ih =>
    rintro opened rest -
    rw [List.cons_append, List.append_assoc]
    have hopen := dropBlanks_cons (c := '{') (by decide) (inside ++ '}' :: rest)
    cases entries with
    | nil =>
      cases hinside with
      | noMembers hblanks => exact skipValue_of_noMembers hopen (dropBlanks_append hblanks _)
    | cons first more =>
      -- Its first key is passed over along with the brace.
      obtain ⟨key, -, hstart, -⟩ := hinside.members_start ('}' :: rest)
      obtain ⟨start, hkey, hskip⟩ := ih opened rest
      exact (skipValue_of_members hopen hstart hkey).trans hskip
  | @element element before after hbefore htoken hafter ih =>
    intro opened rest hrest
    -- Blanks go on with no number, so the token ends where they start.
    refine ⟨after, hafter, ?_⟩
    rw [List.append_assoc, List.append_assoc, skipValue_congr (dropBlanks_append hbefore _)]
    exact ih opened _ ((hrest.blanks_append hafter).endsToken _)
  | noElements hblanks => trivial
  | lastElement hlast ih =>
    intro opened rest
    obtain ⟨after, hafter, hskip⟩ := ih (.square :: opened) (']' :: rest) (endsNumber_square rest)
    rw [hskip]
    exact skipRest_of_close_square (dropBlanks_append hafter _)
  | @elements first next more text inside hfirst hmore ihfirst ihmore =>
    intro opened rest
    obtain ⟨after, hafter, hskip⟩ :=
      ihfirst (.square :: opened) (',' :: (inside ++ ']' :: rest)) (endsNumber_comma _)
    rw [List.append_assoc, List.cons_append, hskip,
      skipRest_of_comma_square (dropBlanks_append hafter _)]
    exact ihmore opened rest
  | @member entry before source between text hbefore hkey hbetween hvalue ih =>
    intro opened rest hrest
    obtain ⟨after, hafter, hskip⟩ := ih opened rest hrest
    refine ⟨text ++ rest, after, hafter, ?_, hskip⟩
    have hquote :
        dropBlanks (before ++ '"' :: (source ++ '"' :: (between ++ ':' :: text)) ++ rest) =
          '"' :: (source ++ '"' :: (between ++ ':' :: (text ++ rest))) := by
      rw [List.append_assoc, dropBlanks_append hbefore]
      simp [dropBlanks_cons (c := '"') (by decide)]
    -- Blanks may stand before the colon, too.
    have hcolon : takeColon (between ++ ':' :: (text ++ rest)) = .ok (text ++ rest) := by
      rw [takeColon, dropBlanks_append hbetween]
      rfl
    rw [skipKey, hquote]
    simp only [hkey.skipText_append, hcolon]
  | noMembers hblanks => trivial
  | lastMember hlast ih =>
    intro opened rest
    obtain ⟨start, after, hafter, hkey, hskip⟩ :=
      ih (.curly :: opened) ('}' :: rest) (endsNumber_curly rest)
    refine ⟨start, hkey, hskip.trans ?_⟩
    exact skipRest_of_close (dropBlanks_append hafter _)
  | @members first next more text inside hfirst hmore ihfirst ihmore =>
    intro opened rest
    obtain ⟨start, after, hafter, hkey, hskip⟩ :=
      ihfirst (.curly :: opened) (',' :: (inside ++ '}' :: rest)) (endsNumber_comma _)
    obtain ⟨start', hkey', hskip'⟩ := ihmore opened rest
    rw [List.append_assoc, List.cons_append]
    refine ⟨start, hkey, ?_⟩
    -- Behind the first member there is a comma, and then the next key.
    rw [hskip, skipRest_of_comma (dropBlanks_append hafter _) hkey', hskip']

/-! ### Parts -/

/-- Whether a part of an array starts with the token of an element. -/
def Element.IsPart (element : Element) (part : List Char) : Prop :=
  Derives (.value element.value) element.token ∧
    ∃ rest, EndsNumber rest ∧ part = element.token ++ rest

/-- Whether a part of an object is one of its members. -/
def Entry.IsPart (entry : Entry) (part : Member) : Prop :=
  part.key = entry.key ∧ ∃ start, part.value = .ok start ∧ entry.toElement.IsPart start

section Parts

variable {text inside rest : List Char}

/-- An element is found behind its blanks, and it is passed over up to the blanks behind it. -/
theorem Derives.isPart {element : Element} (h : Derives (.element element) text)
    (hrest : EndsNumber rest) :
    ∃ after, AreBlanks after ∧ element.IsPart (dropBlanks (text ++ rest)) ∧
      skipValue [] (dropBlanks (text ++ rest)) = .ok (after ++ rest) := by
  cases h with
  | @element _ before after hbefore htoken hafter =>
    have hends := hrest.blanks_append hafter
    rw [List.append_assoc, List.append_assoc, dropBlanks_append hbefore, htoken.dropBlanks_eq]
    refine ⟨after, hafter, ⟨htoken, _, hends, rfl⟩, ?_⟩
    exact (htoken.skipped [] _ (hends.endsToken _)).trans (skipRest_nil _)

/-- From the first element on, the inside of an array is cut into its elements. -/
theorem Derives.elementsFrom_append {first : Element} {more : List Element}
    (h : Derives (.elements (first :: more)) inside) (rest : List Char) :
    ∃ parts, elementsFrom (inside ++ ']' :: rest) = ⟨parts, .ok rest⟩ ∧
      List.Forall₂ Element.IsPart (first :: more) parts := by
  -- The induction is on the elements behind the first; each of them starts behind a comma.
  induction more generalizing first inside with
  | nil =>
    cases h with
    | lastElement hlast =>
      obtain ⟨after, hafter, hpart, hskip⟩ := hlast.isPart (endsNumber_square rest)
      exact ⟨_, elementsFrom_of_close hskip (dropBlanks_append hafter _), .cons hpart .nil⟩
  | cons next more ih =>
    cases h with
    | @elements _ _ _ text inside hfirst hmore =>
      obtain ⟨after, hafter, hpart, hskip⟩ :=
        hfirst.isPart (endsNumber_comma (inside ++ ']' :: rest))
      obtain ⟨c, behind, hstart, hc⟩ := hmore.elements_start (']' :: rest)
      obtain ⟨parts, hparts, hall⟩ := ih hmore
      rw [List.append_assoc, List.cons_append]
      refine ⟨_, ?_, .cons hpart hall⟩
      rw [elementsFrom_of_comma hskip (dropBlanks_append hafter _) hstart hc, hparts]
      rfl

/-- **The parts of an array** are its elements. -/
theorem Derives.elements_append {elements : List Element} (h : Derives (.elements elements) inside)
    (rest : List Char) : ∃ parts, Json.elements (inside ++ ']' :: rest) = ⟨parts, .ok rest⟩ ∧
      List.Forall₂ Element.IsPart elements parts := by
  cases elements with
  -- Behind blanks the bracket closes at once.
  | nil =>
    cases h with
    | noElements hblanks =>
      refine ⟨[], ?_, .nil⟩
      rw [Json.elements, dropBlanks_append hblanks]
      rfl
  | cons first more =>
    obtain ⟨c, behind, hstart, hc⟩ := h.elements_start (']' :: rest)
    rw [elements_of_elements hstart hc]
    exact h.elementsFrom_append rest

/-- A member is read up to its colon, and its value is passed over. -/
theorem Derives.member_isPart {entry : Entry} (h : Derives (.member entry) text)
    (hrest : EndsNumber rest) :
    ∃ key afterKey start after, AreBlanks after ∧ dropBlanks (text ++ rest) = '"' :: key ∧
      readText key = .ok (entry.key, afterKey) ∧ (Member.mk entry.key afterKey).value = .ok start ∧
      entry.toElement.IsPart start ∧ skipValue [] start = .ok (after ++ rest) := by
  cases h with
  | @member _ before source between text hbefore hkey hbetween hvalue =>
    -- The value is a part as it is anywhere; what is new are the key and the colon.
    obtain ⟨after, hafter, hpart, hskip⟩ := hvalue.isPart hrest
    refine ⟨source ++ '"' :: (between ++ ':' :: (text ++ rest)), between ++ ':' :: (text ++ rest),
      _, after, hafter, ?_, ?_, ?_, hpart, hskip⟩
    · rw [List.append_assoc, dropBlanks_append hbefore]
      simp [dropBlanks_cons (c := '"') (by decide)]
    · rw [hkey.readText_append, String.ofList_toList]
    · rw [Member.value, takeColon, dropBlanks_append hbetween]
      rfl

/-- From its first key on, the inside of an object is cut into its members. -/
theorem Derives.membersFrom_append {first : Entry} {more : List Entry}
    (h : Derives (.members (first :: more)) inside) (rest : List Char) :
    ∃ key parts, dropBlanks (inside ++ '}' :: rest) = '"' :: key ∧
      membersFrom key = ⟨parts, .ok rest⟩ ∧
      List.Forall₂ Entry.IsPart (first :: more) parts := by
  induction more generalizing first inside with
  | nil =>
    cases h with
    | lastMember hlast =>
      obtain ⟨key, afterKey, start, after, hafter, hquote, hkey, hvalue, hpart, hskip⟩ :=
        hlast.member_isPart (endsNumber_curly rest)
      exact ⟨key, _, hquote, membersFrom_of_close hkey hvalue hskip (dropBlanks_append hafter _),
        .cons ⟨rfl, start, hvalue, hpart⟩ .nil⟩
  -- `ih` starts at the key behind the comma.
  | cons next more ih =>
    cases h with
    | @members _ _ _ text inside hfirst hmore =>
      obtain ⟨key, afterKey, start, after, hafter, hquote, hkey, hvalue, hpart, hskip⟩ :=
        hfirst.member_isPart (endsNumber_comma (inside ++ '}' :: rest))
      obtain ⟨key', parts, hquote', hparts, hall⟩ := ih hmore
      rw [List.append_assoc, List.cons_append]
      refine ⟨key, _, hquote, ?_, .cons ⟨rfl, start, hvalue, hpart⟩ hall⟩
      rw [membersFrom_of_comma hkey hvalue hskip (dropBlanks_append hafter _) hquote', hparts]
      rfl

/-- **The parts of an object** are its members. -/
theorem Derives.members_append {entries : List Entry} (h : Derives (.members entries) inside)
    (rest : List Char) :
    ∃ parts, Json.members (inside ++ '}' :: rest) = ⟨parts, .ok rest⟩ ∧
      List.Forall₂ Entry.IsPart entries parts := by
  cases entries with
  -- No members: nothing but blanks before the brace.
  | nil =>
    cases h with
    | noMembers hblanks =>
      refine ⟨[], ?_, .nil⟩
      rw [Json.members, dropBlanks_append hblanks]
      rfl
  | cons first more =>
    obtain ⟨key, parts, hquote, hparts, hall⟩ := h.membersFrom_append rest
    refine ⟨parts, ?_, hall⟩
    rw [Json.members, hquote]
    exact hparts

end Parts

end Lineage.Json
