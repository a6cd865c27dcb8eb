import Lineage.Json.Outline

/-!
# Passing over values

What passing over a text does, by the token that the text starts with. Blanks in front of a value do
not matter (`skipValue_congr`); a value that is no container is passed over by its own reader
(`skipValue_of_scalar`), and the bracket of a container is left open until the one that closes it
(`skipValue_of_elements`, `skipValue_of_members`).

The parts of a container are found by passing over one after the other. What stands behind a part
decides how it goes on: with the bracket that closes the container (`elementsFrom_of_close`,
`membersFrom_of_close`) or behind a comma (`elementsFrom_of_comma`, `membersFrom_of_comma`).
-/

namespace Lineage.Json

/-! ### Blanks -/

/-- Whether there is nothing but blanks. -/
def AreBlanks (text : List Char) : Prop :=
  ∀ c ∈ text, isBlank c = true

/-- Blanks behind blanks are blanks. -/
theorem AreBlanks.append {as bs : List Char} (ha : AreBlanks as) (hb : AreBlanks bs) :
    AreBlanks (as ++ bs) :=
  fun c h => (List.mem_append.1 h).elim (ha c) (hb c)

/-- Of nothing but blanks nothing is left. -/
theorem dropBlanks_blanks {blanks : List Char} (h : AreBlanks blanks) : dropBlanks blanks = [] := by
  have happend := dropBlanks_append h []
  rwa [List.append_nil] at happend

/-- A text is its blanks in front of its first token. -/
theorem exists_blanks (text : List Char) :
    ∃ blanks, AreBlanks blanks ∧ text = blanks ++ dropBlanks text := by
  refine ⟨text.takeWhile isBlank, ?_, List.takeWhile_append_dropWhile.symm⟩
  intro c hc
  exact List.all_eq_true.1 List.all_takeWhile c hc

/-! ### One step -/

section Skip

variable {opened : List Bracket} {text inside rest : List Char}

/-- At a bracket an array is passed over: it ends at once, or its first element is due. -/
theorem skipValue_square (h : dropBlanks text = '[' :: inside) :
    skipValue opened text =
      match dropBlanks inside with
      | [] => .error ⟨.endInList, [], 0⟩
      | ']' :: rest => skipRest opened rest
      | _ => skipValue (.square :: opened) inside := by
  rw [skipValue]
  split
  next inside' hopen =>
    -- It is the one bracket that `h` tells of.
    obtain ⟨-, rfl⟩ := List.cons.inj (h.symm.trans hopen)
    split <;> simp_all
  next => simp_all
  next hsquare _ => exact absurd h (hsquare inside)

/-- At a brace an object is passed over: it ends at once, or its first key is due. -/
theorem skipValue_curly (h : dropBlanks text = '{' :: inside) :
    skipValue opened text =
      match dropBlanks inside with
      | [] => .error ⟨.endInObject, [], 0⟩
      | '}' :: rest => skipRest opened rest
      | _ =>
        match skipKey inside with
        | .error fault => .error fault
        | .ok rest => skipValue (.curly :: opened) rest := by
  rw [skipValue]
  -- The case of the definition is the one that the opening brace selects.
  split
  next => simp_all
  next inside' hopen =>
    obtain ⟨-, rfl⟩ := List.cons.inj (h.symm.trans hopen)
    split
    next => simp_all
    next => simp_all
    next => split <;> simp_all
  next _ hcurly => exact absurd h (hcurly inside)

/-- At anything else there is a value that is no container. -/
theorem skipValue_scalar (hsquare : ∀ inside, dropBlanks text ≠ '[' :: inside)
    (hcurly : ∀ inside, dropBlanks text ≠ '{' :: inside) : skipValue opened text =
      match skipScalar (dropBlanks text) with
      | .error fault => .error fault
      | .ok rest => skipRest opened rest := by
  rw [skipValue]
  split
  next inside hopen => exact absurd hopen (hsquare inside)
  next inside hopen => exact absurd hopen (hcurly inside)
  next => split <;> simp_all

/-- **Blanks in front of a value** do not matter. -/
theorem skipValue_congr {text' : List Char} (h : dropBlanks text = dropBlanks text') :
    skipValue opened text = skipValue opened text' := by
  -- Passing over looks at the token first, and the token is the same.
  by_cases hsquare : ∃ inside, dropBlanks text' = '[' :: inside
  · obtain ⟨inside, hsquare⟩ := hsquare
    rw [skipValue_square hsquare, skipValue_square (h.trans hsquare)]
  · by_cases hcurly : ∃ inside, dropBlanks text' = '{' :: inside
    · obtain ⟨inside, hcurly⟩ := hcurly
      rw [skipValue_curly hcurly, skipValue_curly (h.trans hcurly)]
    · rw [skipValue_scalar (not_exists.1 hsquare) (not_exists.1 hcurly),
        skipValue_scalar (h ▸ not_exists.1 hsquare) (h ▸ not_exists.1 hcurly), h]

/-- A value that is no container is passed over by its own reader. -/
theorem skipValue_of_scalar {first : Char} (htext : dropBlanks text = first :: inside)
    (hsquare : first ≠ '[') (hcurly : first ≠ '{')
    (hskip : skipScalar (first :: inside) = .ok rest) :
    skipValue opened text = skipRest opened rest := by
  rw [skipValue_scalar (by simp [htext, hsquare]) (by simp [htext, hcurly]), htext, hskip]

/-- A string is passed over up to its closing quote. -/
theorem skipValue_of_text (htext : dropBlanks text = '"' :: inside)
    (hskip : skipText inside = .ok rest) : skipValue opened text = skipRest opened rest :=
  skipValue_of_scalar htext (by decide) (by decide) hskip

/-- An empty array is passed over with its two brackets. -/
theorem skipValue_of_noElements (htext : dropBlanks text = '[' :: inside)
    (hclose : dropBlanks inside = ']' :: rest) : skipValue opened text = skipRest opened rest := by
  rw [skipValue_square htext, hclose]
  rfl

/-- An empty object is passed over with its two braces. -/
theorem skipValue_of_noMembers (htext : dropBlanks text = '{' :: inside)
    (hclose : dropBlanks inside = '}' :: rest) : skipValue opened text = skipRest opened rest := by
  rw [skipValue_curly htext, hclose]
  rfl

/-- Behind the bracket of an array that is not empty its first element is due, and the bracket
is left open. -/
theorem skipValue_of_elements (htext : dropBlanks text = '[' :: inside) {first : Char}
    {more : List Char} (hinside : dropBlanks inside = first :: more) (hclose : first ≠ ']') :
    skipValue opened text = skipValue (.square :: opened) inside := by
  rw [skipValue_square htext, hinside]
  split
  next heq => cases heq
  next heq => exact absurd (List.cons.inj heq).1 hclose
  next => rfl

/-- Behind the brace of an object that is not empty, its first key is passed over, and the brace
is left open. -/
theorem skipValue_of_members (htext : dropBlanks text = '{' :: inside) {key : List Char}
    (hinside : dropBlanks inside = '"' :: key) (hkey : skipKey inside = .ok rest) :
    skipValue opened text = skipValue (.curly :: opened) rest := by
  rw [skipValue_curly htext, hinside, hkey]
  rfl

/-- In an array the next element is due behind a comma. -/
theorem skipRest_of_comma_square (htext : dropBlanks text = ',' :: inside) :
    skipRest (.square :: opened) text = skipValue (.square :: opened) inside := by
  rw [skipRest]
  split <;> simp_all

/-- Its bracket closes it, and what is open around it goes on. -/
theorem skipRest_of_close_square (htext : dropBlanks text = ']' :: rest) :
    skipRest (.square :: opened) text = skipRest opened rest := by
  rw [skipRest]
  split <;> simp_all

/-- In an object the next key is due behind a comma. -/
theorem skipRest_of_comma (htext : dropBlanks text = ',' :: inside)
    (hkey : skipKey inside = .ok rest) :
    skipRest (.curly :: opened) text = skipValue (.curly :: opened) rest := by
  rw [skipRest]
  split
  next => simp_all
  next inside' hcomma =>
    obtain ⟨-, rfl⟩ := List.cons.inj (htext.symm.trans hcomma)
    split <;> simp_all
  next => simp_all
  next => simp_all

/-- Its brace closes it, and what is open around it goes on. -/
theorem skipRest_of_close (htext : dropBlanks text = '}' :: rest) :
    skipRest (.curly :: opened) text = skipRest opened rest := by
  rw [skipRest]
  split <;> simp_all

/-- Where nothing is open the value is at its end. -/
theorem skipRest_nil (text : List Char) : skipRest [] text = .ok text := by
  rw [skipRest]

end Skip

/-! ### The elements of an array -/

section Elements

variable {text rest behind : List Char}

/-- An element that is passed over is a part, and what follows decides how the array goes on. -/
theorem elementsFrom_eq (hskip : skipValue [] (dropBlanks text) = .ok rest) :
    elementsFrom text =
      match dropBlanks rest with
      | [] => ⟨[dropBlanks text], .error ⟨.endInList, [], 0⟩⟩
      | ']' :: behind => ⟨[dropBlanks text], .ok behind⟩
      | ',' :: behind =>
        match dropBlanks behind with
        | [] => ⟨[dropBlanks text], .error ⟨.endInValue, [], 0⟩⟩
        | ']' :: behind => ⟨[dropBlanks text], .error ⟨.trailingComma, ']' :: behind, 1⟩⟩
        | _ => (elementsFrom behind).cons (dropBlanks text)
      | behind => ⟨[dropBlanks text], .error ⟨.expectedCommaOrBracket, behind, 1⟩⟩ := by
  rw [elementsFrom]
  split
  next => simp_all
  next rest' hrest =>
    -- `hskip` says what is left behind the element.
    obtain rfl := Except.ok.inj (hskip.symm.trans hrest)
    split
    next => simp_all
    next => simp_all
    next behind hcomma =>
      rw [hcomma]
      split <;> simp_all
    next => simp_all

/-- An element with the bracket behind it is the last. -/
theorem elementsFrom_of_close (hskip : skipValue [] (dropBlanks text) = .ok rest)
    (hclose : dropBlanks rest = ']' :: behind) :
    elementsFrom text = ⟨[dropBlanks text], .ok behind⟩ := by
  rw [elementsFrom_eq hskip, hclose]
  rfl

/-- An element with a comma behind it is followed by the others. -/
theorem elementsFrom_of_comma (hskip : skipValue [] (dropBlanks text) = .ok rest)
    (hcomma : dropBlanks rest = ',' :: behind) {first : Char} {more : List Char}
    (hnext : dropBlanks behind = first :: more) (hclose : first ≠ ']') :
    elementsFrom text = (elementsFrom behind).cons (dropBlanks text) := by
  rw [elementsFrom_eq hskip, hcomma]
  simp only [hnext]
  -- What comes next is not the bracket, so the comma is not one too many.
  split
  next heq => cases heq
  next heq => exact absurd (List.cons.inj heq).1 hclose
  next => rfl

/-- An array that does not end at once starts with an element. -/
theorem elements_of_elements {first : Char} {more : List Char}
    (htext : dropBlanks text = first :: more) (hclose : first ≠ ']') :
    elements text = elementsFrom text := by
  rw [elements, htext]
  split
  next heq => cases heq
  next heq => exact absurd (List.cons.inj heq).1 hclose
  next => rfl

end Elements

/-! ### The members of an object -/

section Members

variable {text afterKey start rest behind : List Char} {key : String}

/-- A member that is read and passed over is a part, and what follows decides how the
object goes on. -/
theorem membersFrom_eq (hkey : readText text = .ok (key, afterKey))
    (hvalue : (Member.mk key afterKey).value = .ok start) (hskip : skipValue [] start = .ok rest) :
    membersFrom text =
      match dropBlanks rest with
      | [] => ⟨[⟨key, afterKey⟩], .error ⟨.endInObject, [], 0⟩⟩
      | '}' :: behind => ⟨[⟨key, afterKey⟩], .ok behind⟩
      | ',' :: behind =>
        match dropBlanks behind with
        | [] => ⟨[⟨key, afterKey⟩], .error ⟨.endInValue, [], 0⟩⟩
        | '}' :: behind => ⟨[⟨key, afterKey⟩], .error ⟨.trailingComma, '}' :: behind, 1⟩⟩
        | '"' :: next => (membersFrom next).cons ⟨key, afterKey⟩
        | behind => ⟨[⟨key, afterKey⟩], .error ⟨.keyNotText, behind, 1⟩⟩
      | behind => ⟨[⟨key, afterKey⟩], .error ⟨.expectedCommaOrBrace, behind, 1⟩⟩ := by
  rw [membersFrom]
  split
  next => simp_all
  next key' afterKey' hread =>
    -- Key, value and rest are those of the hypotheses, so each reader goes its one way.
    obtain ⟨rfl, rfl⟩ := Prod.mk.inj (Except.ok.inj (hkey.symm.trans hread))
    simp only
    split
    next => simp_all
    next start' hstart =>
      obtain rfl := Except.ok.inj (hvalue.symm.trans hstart)
      split
      next => simp_all
      next rest' hrest =>
        obtain rfl := Except.ok.inj (hskip.symm.trans hrest)
        split
        next => simp_all
        next => simp_all
        next behind hcomma =>
          rw [hcomma]
          split <;> simp_all
        next => simp_all

/-- A member with the brace behind it is the last. -/
theorem membersFrom_of_close (hkey : readText text = .ok (key, afterKey))
    (hvalue : (Member.mk key afterKey).value = .ok start) (hskip : skipValue [] start = .ok rest)
    (hclose : dropBlanks rest = '}' :: behind) :
    membersFrom text = ⟨[⟨key, afterKey⟩], .ok behind⟩ := by
  rw [membersFrom_eq hkey hvalue hskip, hclose]
  rfl

/-- A member with a comma behind it is followed by the others. -/
theorem membersFrom_of_comma (hkey : readText text = .ok (key, afterKey))
    (hvalue : (Member.mk key afterKey).value = .ok start) (hskip : skipValue [] start = .ok rest)
    (hcomma : dropBlanks rest = ',' :: behind) {next : List Char}
    (hnext : dropBlanks behind = '"' :: next) :
    membersFrom text = (membersFrom next).cons ⟨key, afterKey⟩ := by
  rw [membersFrom_eq hkey hvalue hskip, hcomma]
  simp only [hnext]

/-- The first member starts with its quote, and its key is the string behind that. -/
theorem exists_of_parts {member : Member} {others : List Member}
    (h : (members text).parts = member :: others) :
    ∃ inside, dropBlanks text = '"' :: inside ∧
      readText inside = .ok (member.key, member.afterKey) ∧ members text = membersFrom inside := by
  unfold members at h ⊢
  split at h
  · cases h
  · cases h
  next inside hquote =>
    refine ⟨inside, hquote, ?_, rfl⟩
    unfold membersFrom at h
    split at h
    next => cases h
    next key afterKey hkey =>
      -- Whatever comes of the value, it is this key that the first member has.
      suffices hmember : Member.mk key afterKey = member by rw [← hmember, hkey]
      simp only at h
      split at h
      · exact (List.cons.inj h).1
      · split at h
        · exact (List.cons.inj h).1
        · split at h
          · exact (List.cons.inj h).1
          · exact (List.cons.inj h).1
          · split at h <;> exact (List.cons.inj h).1
          · exact (List.cons.inj h).1
  · cases h

/-- An object that ends behind its first key has a member. -/
theorem parts_ne_nil_of_ending (h : (membersFrom text).ending = .ok rest) :
    (membersFrom text).parts ≠ [] := by
  unfold membersFrom at h ⊢
  split at h
  next => cases h
  next =>
    simp only at h ⊢
    split at h
    next => cases h
    next =>
      split at h
      next => cases h
      next =>
        split at h
        next => cases h
        -- The object ends behind this member.
        next => exact List.cons_ne_nil _ _
        next =>
          split at h
          next => cases h
          next => cases h
          next => exact List.cons_ne_nil _ _
          next => cases h
        next => cases h

/-- The first member is the only one just if there is a brace behind its value. -/
theorem membersFrom_eq_iff (hkey : readText text = .ok (key, afterKey))
    (hvalue : (Member.mk key afterKey).value = .ok start) (hskip : skipValue [] start = .ok rest) :
    membersFrom text = ⟨[⟨key, afterKey⟩], .ok behind⟩ ↔ dropBlanks rest = '}' :: behind := by
  rw [membersFrom_eq hkey hvalue hskip]
  split
  next hnil => simp [hnil]
  next hclose => simp [hclose]
  next rest' hcomma =>
    split
    next => simp [hcomma]
    next => simp [hcomma]
    next inside _ =>
      -- Behind a comma and a quote there is another member, if the end is reached.
      simp only [Run.cons, Run.mk.injEq, List.cons.injEq, true_and, hcomma]
      constructor
      · rintro ⟨hnil, hend⟩
        exact absurd hnil (parts_ne_nil_of_ending hend)
      · exact fun h => absurd h.1 (by decide)
    next => simp [hcomma]
  next hclose _ => simpa using hclose behind

end Members

end Lineage.Json
