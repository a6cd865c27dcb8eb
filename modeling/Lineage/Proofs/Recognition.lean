import Lineage.Proofs.Grammar

/-!
# Reading is recognition

The reader takes just the values of the grammar, within its limits. A value `Fits` a budget if no
more containers than that are nested in each other and all numbers are in range. A token is read as
the value that it stands for if that fits and as nothing else (`Derives.isRead`), and whatever is
read was derived (`isSound_readValue`). So a text is read to its end if and only if it is a value
that fits, with blanks around it (`readValue_expectEnd_iff`).
-/

namespace Lineage.Json

/-- Whether a value is within the limits of a reader that may open so many containers. -/
inductive Value.Fits : Nat → Value → Prop
  | null {budget : Nat} : Fits budget .null
  | bool {budget : Nat} (value : Bool) : Fits budget (.bool value)
  | number {budget : Nat} {number : Number} (hrange : number.toDouble?.isSome = true) :
      Fits budget (.number number)
  | text {budget : Nat} (content : String) : Fits budget (.text content)
  | array {budget : Nat} {elements : List Value} (h : ∀ value ∈ elements, Fits budget value) :
      Fits (budget + 1) (.array elements)
  | object {budget : Nat} {members : List (String × Value)}
      (h : ∀ member ∈ members, Fits budget member.2) : Fits (budget + 1) (.object members)

/-- What fits a budget fits a larger one. -/
theorem Value.Fits.succ {budget : Nat} {value : Value} (h : value.Fits budget) :
    value.Fits (budget + 1) := by
  induction h with
  | null => exact .null
  | bool value => exact .bool value
  | number hrange => exact .number hrange
  | text content => exact .text content
  | array h ih => exact .array ih
  | object h ih => exact .object ih

/-- What is made of a result is there if the result is. -/
theorem map_eq_ok_iff {ε α β : Type} {x : Except ε α} {f : α → β} {b : β} :
    x.map f = .ok b ↔ ∃ a, x = .ok a ∧ f a = b := by
  cases x with
  | error e =>
    constructor
    · exact fun h => nomatch h
    · exact fun ⟨_, h, _⟩ => nomatch h
  | ok a =>
    constructor
    · intro h
      exact ⟨a, rfl, Except.ok.inj h⟩
    · rintro ⟨a', ha, hb⟩
      rw [Except.ok.inj ha, ← hb]
      rfl

/-! ### Reading what is derived -/

/-- Whether a token is read as a value within the limits, and as nothing else. -/
def IsRead (value : Value) (token : List Char) : Prop :=
  ∀ budget rest read, EndsToken value rest →
    (readValue budget (token ++ rest) = .ok read ↔ read = value ∧ value.Fits budget)

section Close

variable {α β : Type}

/-- The parts of a container count if each of them is read and the container ends. -/
theorem Run.close_eq_ok_iff {run : Run α} {read : Except Fault β} {parts : β} :
    run.close read = .ok parts ↔ read = .ok parts ∧ ∃ rest, run.ending = .ok rest := by
  obtain ⟨met, ending⟩ := run
  cases read with
  | error fault =>
    constructor
    · exact fun h => nomatch h
    · exact fun ⟨h, _⟩ => nomatch h
  -- The parts are read, so only the end is left to ask for.
  | ok read =>
    rw [Run.close, map_eq_ok_iff]
    constructor
    · rintro ⟨rest, hrest, rfl⟩
      exact ⟨rfl, rest, hrest⟩
    · rintro ⟨hread, rest, hrest⟩
      exact ⟨rest, hrest, Except.ok.inj hread⟩

end Close

section Cons

variable {reader : List Char → Except Fault Value}

/-- Elements are read if the first is and the others are. -/
theorem readEach_cons_eq_ok_iff {start : List Char} {starts : List (List Char)}
    {values : List Value} :
    readEach reader (start :: starts) = .ok values ↔
      ∃ value more, reader start = .ok value ∧ readEach reader starts = .ok more ∧
        value :: more = values := by
  rw [readEach]
  cases reader start with
  | error fault => simp
  | ok value => simp only [map_eq_ok_iff, Except.ok.injEq, exists_and_left, exists_eq_left']

/-- Members are read if the first has a value that is read and the others are. -/
theorem readMembers_cons_eq_ok_iff {member : Member} {members : List Member}
    {pairs : List (String × Value)} :
    readMembers reader (member :: members) = .ok pairs ↔
      ∃ start value more, member.value = .ok start ∧ reader start = .ok value ∧
        readMembers reader members = .ok more ∧ (member.key, value) :: more = pairs := by
  rw [readMembers]
  cases member.value with
  | error fault => simp
  | ok start =>
    cases hread : reader start with
    | error fault => simp [hread]
    | ok value =>
      simp only [hread, map_eq_ok_iff, Except.ok.injEq, exists_and_left, exists_eq_left']

end Cons

section Parts

variable {budget : Nat}

/-- The parts of an array are read as the values of its elements, if these fit. -/
theorem readEach_eq_ok_iff {elements : List Element} {parts : List (List Char)}
    (hparts : List.Forall₂ Element.IsPart elements parts)
    (hread : ∀ e ∈ elements, IsRead e.value e.token) {values : List Value} :
    readEach (fun start => readValue budget start) parts = .ok values ↔
      values = elements.map (·.value) ∧ ∀ e ∈ elements, e.value.Fits budget := by
  induction hparts generalizing values with
  | nil => simp [readEach, eq_comm]
  | @cons element part elements parts hpart _ ih =>
    -- A part starts with its token and goes on with what ends it.
    obtain ⟨-, rest, hends, rfl⟩ := hpart
    obtain ⟨hfirst, hrest⟩ := List.forall_mem_cons.1 hread
    rw [readEach_cons_eq_ok_iff, List.forall_mem_cons]
    constructor
    · rintro ⟨value, more, hvalue, hmore, rfl⟩
      obtain ⟨rfl, hfits⟩ := (hfirst budget rest value (hends.endsToken _)).1 hvalue
      obtain ⟨rfl, hall⟩ := (ih hrest).1 hmore
      exact ⟨rfl, hfits, hall⟩
    · rintro ⟨rfl, hfits, hall⟩
      have hvalue := (hfirst budget rest element.value (hends.endsToken _)).2 ⟨rfl, hfits⟩
      exact ⟨_, _, hvalue, (ih hrest).2 ⟨rfl, hall⟩, rfl⟩

/-- The parts of an object are read as its keys and values, if the values fit. -/
theorem readMembers_eq_ok_iff {entries : List Entry} {parts : List Member}
    (hparts : List.Forall₂ Entry.IsPart entries parts)
    (hread : ∀ e ∈ entries, IsRead e.value e.token) {pairs : List (String × Value)} :
    readMembers (fun start => readValue budget start) parts = .ok pairs ↔
      pairs = entries.map (fun e => (e.key, e.value)) ∧ ∀ e ∈ entries, e.value.Fits budget := by
  induction hparts generalizing pairs with
  | nil => simp [readMembers, eq_comm]
  | @cons entry part entries parts hpart _ ih =>
    -- The value of the part is where the token of the entry starts.
    obtain ⟨hkey, start, hstart, -, rest, hends, rfl⟩ := hpart
    obtain ⟨hfirst, hrest⟩ := List.forall_mem_cons.1 hread
    rw [readMembers_cons_eq_ok_iff, List.forall_mem_cons]
    constructor
    · rintro ⟨start, value, more, hstart', hvalue, hmore, rfl⟩
      obtain rfl := Except.ok.inj (hstart.symm.trans hstart')
      obtain ⟨rfl, hfits⟩ := (hfirst budget rest value (hends.endsToken _)).1 hvalue
      obtain ⟨rfl, hall⟩ := (ih hrest).1 hmore
      rw [hkey]
      exact ⟨rfl, hfits, hall⟩
    · rintro ⟨rfl, hfits, hall⟩
      have hvalue := (hfirst budget rest entry.value (hends.endsToken _)).2 ⟨rfl, hfits⟩
      refine ⟨_, _, _, hstart, hvalue, (ih hrest).2 ⟨rfl, hall⟩, ?_⟩
      rw [hkey]
      rfl

end Parts

/-! ### Values by their first character -/

section Dispatch

variable {special : Run Member → Option (Except Fault Value)} {budget : Nat}
  {text inside : List Char}

/-- At a bracket an array is read: it takes one of the budget, and its parts are read
with the rest. -/
theorem readWith_square {value : Value} (h : dropBlanks text = '[' :: inside) :
    readWith special budget text = .ok value ↔
      ∃ less values, budget = less + 1 ∧ value = .array values ∧
        readEach (fun start => readWith special less start) (elements inside).parts = .ok values ∧
        ∃ rest, (elements inside).ending = .ok rest := by
  rw [readWith, h]
  cases budget with
  -- Without a budget no container is opened.
  | zero =>
    constructor
    · exact fun h => nomatch h
    · exact fun ⟨_, _, h, _⟩ => nomatch h
  | succ less =>
    simp only [map_eq_ok_iff, Run.close_eq_ok_iff]
    constructor
    · rintro ⟨values, ⟨hread, hend⟩, rfl⟩
      exact ⟨less, values, rfl, rfl, hread, hend⟩
    · rintro ⟨_, values, ⟨rfl⟩, rfl, hread, hend⟩
      exact ⟨values, ⟨hread, hend⟩, rfl⟩

/-- At a brace an object is read in the same way, unless it is special. -/
theorem readWith_curly {value : Value} (h : dropBlanks text = '{' :: inside)
    (hplain : special (members inside) = none) :
    readWith special budget text = .ok value ↔
      ∃ less pairs, budget = less + 1 ∧ value = .object pairs ∧
        readMembers (fun start => readWith special less start) (members inside).parts = .ok pairs ∧
        ∃ rest, (members inside).ending = .ok rest := by
  rw [readWith, h]
  cases budget with
  -- No container may be opened any more.
  | zero =>
    constructor
    · exact fun h => nomatch h
    · exact fun ⟨_, _, h, _⟩ => nomatch h
  | succ less =>
    simp only [hplain, map_eq_ok_iff, Run.close_eq_ok_iff]
    constructor
    · rintro ⟨pairs, ⟨hread, hend⟩, rfl⟩
      exact ⟨less, pairs, rfl, rfl, hread, hend⟩
    · rintro ⟨_, pairs, ⟨rfl⟩, rfl, hread, hend⟩
      exact ⟨pairs, ⟨hread, hend⟩, rfl⟩

/-- A special object counts as a container all the same. -/
theorem readWith_special {read : Except Fault Value} {value : Value}
    (h : dropBlanks text = '{' :: inside) (hspecial : special (members inside) = some read) :
    readWith special budget text = .ok value ↔ (∃ less, budget = less + 1) ∧ read = .ok value := by
  rw [readWith, h]
  cases budget with
  | zero =>
    constructor
    · exact fun h => nomatch h
    · exact fun ⟨⟨_, h⟩, _⟩ => nomatch h
  | succ less =>
    simp only [hspecial]
    exact ⟨fun hread => ⟨⟨less, rfl⟩, hread⟩, And.right⟩

/-- At anything else a value is read that is no container. -/
theorem readWith_scalar (hsquare : ∀ inside, dropBlanks text ≠ '[' :: inside)
    (hcurly : ∀ inside, dropBlanks text ≠ '{' :: inside) :
    readWith special budget text = readScalar (dropBlanks text) := by
  rw [readWith.eq_def]
  split
  next inside hopen => exact absurd hopen (hsquare inside)
  next inside hopen => exact absurd hopen (hcurly inside)
  next => rfl

/-- A plain reader reads arrays so, -/
theorem readValue_square {value : Value} (h : dropBlanks text = '[' :: inside) :
    readValue budget text = .ok value ↔
      ∃ less values, budget = less + 1 ∧ value = .array values ∧
        readEach (fun start => readValue less start) (elements inside).parts = .ok values ∧
        ∃ rest, (elements inside).ending = .ok rest :=
  readWith_square h

/-- and objects, of which none is special to it, -/
theorem readValue_curly {value : Value} (h : dropBlanks text = '{' :: inside) :
    readValue budget text = .ok value ↔
      ∃ less pairs, budget = less + 1 ∧ value = .object pairs ∧
        readMembers (fun start => readValue less start) (members inside).parts = .ok pairs ∧
        ∃ rest, (members inside).ending = .ok rest :=
  readWith_curly h rfl

/-- and all other values. -/
theorem readValue_scalar (hsquare : ∀ inside, dropBlanks text ≠ '[' :: inside)
    (hcurly : ∀ inside, dropBlanks text ≠ '{' :: inside) :
    readValue budget text = readScalar (dropBlanks text) :=
  readWith_scalar hsquare hcurly

end Dispatch

/-- Blanks in front of a value do not matter to the reader either. -/
theorem readValue_congr {budget : Nat} {text text' : List Char}
    (h : dropBlanks text = dropBlanks text') : readValue budget text = readValue budget text' := by
  rw [readValue, readValue, readWith.eq_def, readWith.eq_def _ _ text', h]

/-- The reader tells a number by its first character, as passing over does. -/
theorem readScalar_number {first : Char} (h : first = '-' ∨ isDigit first = true)
    (rest : List Char) : readScalar (first :: rest) = readNumber (first :: rest) := by
  rcases h with rfl | hdigit
  · rfl
  · have hne : ∀ c, isDigit c = false → first ≠ c := by
      rintro c hc rfl
      exact absurd hdigit (Bool.eq_false_iff.1 hc)
    rw [readScalar, if_pos hdigit]
    · exact hne 'n' (by decide)
    · exact hne 't' (by decide)
    · exact hne 'f' (by decide)
    · exact hne '"' (by decide)
    · exact hne '-' (by decide)

/-- A number is read up to its end, if it is in range. -/
theorem readNumber_append {number : Number} (h : number.IsSpelt) {rest : List Char}
    (hrest : EndsNumber rest) (read : Value) :
    readNumber (number.spelling ++ rest) = .ok read ↔
      read = .number number ∧ number.toDouble?.isSome = true := by
  rw [readNumber, h.read_append hrest]
  simp only [Number.outOfRange?]
  -- A number out of range is refused, with or without an exponent.
  cases number.toDouble? with
  | some double => simp [eq_comm]
  | none => cases number.exponent <;> simp

/-! ### Tokens are read -/

/-- What a phrase promises about the tokens in it. -/
def Phrase.IsRead : Phrase → List Char → Prop
  | value v, token => Json.IsRead v token
  | element e, _ => Json.IsRead e.value e.token
  | elements es, _ => ∀ e ∈ es, Json.IsRead e.value e.token
  | member e, _ => Json.IsRead e.value e.token
  | members es, _ => ∀ e ∈ es, Json.IsRead e.value e.token

/-- A token that is no container is read by its own reader. -/
theorem isRead_of_readScalar {value : Value} {first : Char} {more : List Char}
    (hderives : Derives (.value value) (first :: more)) (hsquare : first ≠ '[')
    (hcurly : first ≠ '{')
    (hread : ∀ budget rest read, EndsToken value rest →
      (readScalar (first :: (more ++ rest)) = .ok read ↔ read = value ∧ value.Fits budget)) :
    IsRead value (first :: more) := by
  intro budget rest read hrest
  have hdrop := hderives.dropBlanks_eq rest
  rw [List.cons_append] at hdrop ⊢
  rw [readValue_scalar (by simp [hdrop, hsquare]) (by simp [hdrop, hcurly]), hdrop]
  exact hread budget rest read hrest

/-- A word is read as what it stands for and as nothing else. -/
theorem readWord_map_eq_ok_iff (letters rest : List Char) {value read : Value} {budget : Nat}
    (hfits : value.Fits budget) :
    ((readWord letters (letters ++ rest)).map fun _ => value) = .ok read ↔
      read = value ∧ value.Fits budget := by
  rw [readWord_append, map_eq_ok_iff]
  constructor
  · rintro ⟨_, -, rfl⟩
    exact ⟨rfl, hfits⟩
  · rintro ⟨rfl, -⟩
    exact ⟨rest, rfl, rfl⟩

/-- A number is read as itself. -/
theorem isRead_number {number : Number} (h : number.IsSpelt) :
    IsRead (.number number) number.spelling := by
  have hderives := Derives.number h
  obtain ⟨first, more, hspelling, hfirst⟩ := h.exists_cons
  rw [hspelling] at hderives ⊢
  refine isRead_of_readScalar hderives ?_ ?_ ?_
  · rintro rfl
    exact absurd hfirst (by decide)
  · rintro rfl
    exact absurd hfirst (by decide)
  · -- A number fits any budget, so only its range is asked for.
    intro budget rest read hrest
    rw [readScalar_number hfirst, ← List.cons_append, ← hspelling,
      readNumber_append h (hrest number rfl)]
    refine and_congr_right fun _ => ⟨.number, fun hfits => ?_⟩
    cases hfits with
    | number hrange => exact hrange

/-- A string is read as what it denotes. -/
theorem isRead_text {source content : List Char} (h : Denotes source content) :
    IsRead (.text (String.ofList content)) ('"' :: (source ++ ['"'])) := by
  refine isRead_of_readScalar (.text h) (by decide) (by decide) ?_
  rintro budget rest read -
  rw [List.append_assoc]
  show (readText _).map _ = _ ↔ _
  rw [List.singleton_append, h.readText_append, map_eq_ok_iff]
  constructor
  · rintro ⟨_, ⟨rfl⟩, rfl⟩
    exact ⟨rfl, .text _⟩
  · rintro ⟨rfl, -⟩
    exact ⟨_, rfl, rfl⟩

/-- **A token is read as the value that it stands for**, if that is within the limits, and as
nothing else. -/
theorem Derives.isRead {phrase : Phrase} {text : List Char} (h : Derives phrase text) :
    phrase.IsRead text := by
  induction h with
  | null =>
    refine isRead_of_readScalar .null (by decide) (by decide) ?_
    rintro budget rest read -
    exact readWord_map_eq_ok_iff ['u', 'l', 'l'] rest .null
  | isTrue =>
    refine isRead_of_readScalar .isTrue (by decide) (by decide) ?_
    rintro budget rest read -
    exact readWord_map_eq_ok_iff ['r', 'u', 'e'] rest (.bool true)
  | isFalse =>
    refine isRead_of_readScalar .isFalse (by decide) (by decide) ?_
    rintro budget rest read -
    exact readWord_map_eq_ok_iff ['a', 'l', 's', 'e'] rest (.bool false)
  | number hspelt => exact isRead_number hspelt
  | text hsource => exact isRead_text hsource
  | @array elements inside hinside ih =>
    rintro budget rest read -
    obtain ⟨parts, hparts, hall⟩ := hinside.elements_append rest
    rw [List.cons_append, List.append_assoc, List.singleton_append,
      readValue_square (dropBlanks_cons (by decide) _), hparts]
    constructor
    · rintro ⟨less, values, rfl, rfl, hread, -⟩
      -- The parts are read with one container less, and so the values fit one less.
      obtain ⟨rfl, hfits⟩ := (readEach_eq_ok_iff hall ih).1 hread
      refine ⟨rfl, .array ?_⟩
      rintro value hvalue
      obtain ⟨element, hmem, rfl⟩ := List.mem_map.1 hvalue
      exact hfits element hmem
    · rintro ⟨rfl, hfits⟩
      cases hfits with
      | @array less _ hfits =>
        have hread :=
          (readEach_eq_ok_iff hall ih).2 ⟨rfl, fun e he => hfits _ (List.mem_map_of_mem he)⟩
        exact ⟨less, _, rfl, rfl, hread, rest, rfl⟩
  -- The same of an object, whose keys are those of its parts.
  | @object entries inside hinside ih =>
    rintro budget rest read -
    obtain ⟨parts, hparts, hall⟩ := hinside.members_append rest
    rw [List.cons_append, List.append_assoc, List.singleton_append,
      readValue_curly (dropBlanks_cons (by decide) _), hparts]
    constructor
    · rintro ⟨less, pairs, rfl, rfl, hread, -⟩
      obtain ⟨rfl, hfits⟩ := (readMembers_eq_ok_iff hall ih).1 hread
      refine ⟨rfl, .object ?_⟩
      rintro pair hpair
      obtain ⟨entry, hmem, rfl⟩ := List.mem_map.1 hpair
      exact hfits entry hmem
    · rintro ⟨rfl, hfits⟩
      cases hfits with
      | @object less _ hfits =>
        have hparts : ∀ e ∈ entries, e.value.Fits less :=
          fun e he => hfits (e.key, e.value) (List.mem_map_of_mem he)
        have hread := (readMembers_eq_ok_iff hall ih).2 ⟨rfl, hparts⟩
        exact ⟨less, _, rfl, rfl, hread, rest, rfl⟩
  | element hbefore htoken hafter ih => exact ih
  | noElements hblanks => exact fun e he => nomatch he
  | lastElement hlast ih => exact List.forall_mem_cons.2 ⟨ih, fun e he => nomatch he⟩
  | elements hfirst hmore ihfirst ihmore => exact List.forall_mem_cons.2 ⟨ihfirst, ihmore⟩
  | member hbefore hkey hbetween hvalue ih => exact ih
  | noMembers hblanks => exact fun e he => nomatch he
  | lastMember hlast ih => exact List.forall_mem_cons.2 ⟨ih, fun e he => nomatch he⟩
  | members hfirst hmore ihfirst ihmore => exact List.forall_mem_cons.2 ⟨ihfirst, ihmore⟩

/-! ### What is read is derived -/

/-- Of a word that was read the letters were there. -/
theorem eq_of_readWord {letters text rest : List Char} (h : readWord letters text = .ok rest) :
    text = letters ++ rest := by
  induction letters generalizing text with
  | nil => exact Except.ok.inj h
  | cons letter letters ih =>
    cases text with
    | nil => cases h
    | cons c text =>
      rw [readWord] at h
      split at h
      next hletter => rw [hletter, ih h, List.cons_append]
      next => cases h

section Scalar

variable {text rest : List Char} {value : Value}

/-- So a word that was read is a token. -/
theorem exists_derives_word {first : Char} {letters word : List Char}
    (hderives : Derives (.value value) (first :: letters))
    (hskip : readWord letters word = .ok rest) :
    ∃ token, first :: word = token ++ rest ∧ Derives (.value value) token := by
  refine ⟨first :: letters, ?_, hderives⟩
  rw [eq_of_readWord hskip, List.cons_append]

/-- So is a number, up to the place where passing over stops. -/
theorem exists_derives_number (hread : readNumber text = .ok value)
    (hskip : Number.skip text = .ok rest) :
    ∃ token, text = token ++ rest ∧ Derives (.value value) token := by
  rw [readNumber] at hread
  rw [Number.skip] at hskip
  -- Both readers find the same number, and one of them asks for its size as well.
  cases hnumber : Number.read text with
  | error fault =>
    rw [hnumber] at hread
    cases hread
  | ok found =>
    obtain ⟨number, behind⟩ := found
    obtain ⟨hspelt, htext⟩ := Number.isSpelt_of_read hnumber
    rw [hnumber] at hread hskip
    obtain rfl := Except.ok.inj hskip
    simp only at hread
    split at hread
    next => cases hread
    next =>
      obtain rfl := Except.ok.inj hread
      exact ⟨number.spelling, htext, .number hspelt⟩

/-- A string that was read denotes its content, and its quote is in front of the rest. -/
theorem exists_denotes_of_readText {content : String} (h : readText text = .ok (content, rest)) :
    ∃ source, Denotes source content.toList ∧ text = source ++ '"' :: rest := by
  rw [readText] at h
  split at h
  next characters behind hfrom =>
    obtain ⟨source, new, hdenotes, htext, hcharacters⟩ := exists_denotes hfrom
    obtain ⟨rfl, rfl⟩ := Prod.mk.inj (Except.ok.inj h)
    rw [String.toList_ofList, hcharacters]
    exact ⟨source, hdenotes, htext⟩
  next => cases h

/-- **What is read and is no container was derived.** -/
theorem exists_derives_scalar (hread : readScalar text = .ok value)
    (hskip : skipScalar text = .ok rest) :
    ∃ token, text = token ++ rest ∧ Derives (.value value) token := by
  unfold readScalar at hread
  split at hread
  next => cases hread
  next =>
    obtain ⟨_, -, rfl⟩ := map_eq_ok_iff.1 hread
    exact exists_derives_word .null hskip
  next =>
    obtain ⟨_, -, rfl⟩ := map_eq_ok_iff.1 hread
    exact exists_derives_word .isTrue hskip
  next =>
    obtain ⟨_, -, rfl⟩ := map_eq_ok_iff.1 hread
    exact exists_derives_word .isFalse hskip
  next inside =>
    obtain ⟨⟨content, behind⟩, htext, rfl⟩ := map_eq_ok_iff.1 hread
    obtain ⟨source, hdenotes, rfl⟩ := exists_denotes_of_readText htext
    -- Passing over the string stops at the same quote.
    have hbehind := Except.ok.inj ((hdenotes.skipText_append behind).symm.trans hskip)
    have htoken := Derives.text hdenotes
    rw [String.ofList_toList] at htoken
    refine ⟨'"' :: (source ++ ['"']), ?_, htoken⟩
    rw [hbehind, List.cons_append, List.append_assoc, List.singleton_append]
  next => exact exists_derives_number hread hskip
  next first more _ _ _ _ _ =>
    split at hread
    next hdigit =>
      exact exists_derives_number hread ((skipScalar_number (.inr hdigit) more).symm.trans hskip)
    next => cases hread

end Scalar

/-- Behind the blanks there was a colon. -/
theorem eq_of_takeColon {text rest : List Char} (h : takeColon text = .ok rest) :
    dropBlanks text = ':' :: rest := by
  unfold takeColon at h
  split at h
  next => cases h
  next hcolon => rw [hcolon, Except.ok.inj h]
  next => cases h

/-- Whether what a reader takes for a value was derived as one. -/
def IsSound (reader : List Char → Except Fault Value) : Prop :=
  ∀ ⦃text rest : List Char⦄ ⦃value : Value⦄, reader text = .ok value →
    skipValue [] text = .ok rest →
    ∃ blanks token, AreBlanks blanks ∧ text = blanks ++ (token ++ rest) ∧
      Derives (.value value) token

section Parts

variable {reader : List Char → Except Fault Value} (hreader : IsSound reader)
  {text rest : List Char} {value : Value}
include hreader

/-- A value that is read is an element, with the blanks around it. -/
theorem exists_derives_element (hread : reader (dropBlanks text) = .ok value)
    (hskip : skipValue [] (dropBlanks text) = .ok rest) :
    ∃ (element : Element) (written : List Char), Derives (.element element) written ∧
      text = written ++ dropBlanks rest ∧ element.value = value := by
  obtain ⟨blanks, token, hblanks, hstart, htoken⟩ := hreader hread hskip
  obtain ⟨before, hbefore, htext⟩ := exists_blanks text
  obtain ⟨after, hafter, hrest⟩ := exists_blanks rest
  let element : Element := ⟨token, value⟩
  refine ⟨element, _, .element (hbefore.append hblanks) htoken hafter, ?_, rfl⟩
  calc
    text = before ++ (blanks ++ (token ++ (after ++ dropBlanks rest))) := by
      rw [← hrest, ← hstart, ← htext]
    _ = (before ++ blanks) ++ (token ++ after) ++ dropBlanks rest := by
      simp only [List.append_assoc]

/-- Elements that are read up to their bracket were derived, if there is a first. -/
theorem exists_derives_elementsFrom {values : List Value}
    (hread : readEach reader (elementsFrom text).parts = .ok values)
    (hend : (elementsFrom text).ending = .ok rest) :
    ∃ first more inside, Derives (.elements (first :: more)) inside ∧ text = inside ++ ']' :: rest ∧
      values = (first :: more).map (·.value) := by
  -- The cases are those of the cut; only two of them reach the bracket.
  fun_induction elementsFrom text generalizing values with
  | case3 text start behind hskip rest' =>
    rename_i hclose
    obtain rfl := Except.ok.inj hend
    obtain ⟨value, more, hvalue, hmore, rfl⟩ := readEach_cons_eq_ok_iff.1 hread
    obtain rfl := Except.ok.inj hmore
    obtain ⟨element, written, hwritten, htext, rfl⟩ := exists_derives_element hreader hvalue hskip
    rw [hclose] at htext
    exact ⟨element, [], written, .lastElement hwritten, htext, rfl⟩
  -- The comma is passed, and the induction hypothesis is about what is behind it.
  | case6 text start behind hskip next hcomma _ _ =>
    rename_i ih
    obtain ⟨value, more, hvalue, hmore, rfl⟩ := readEach_cons_eq_ok_iff.1 hread
    obtain ⟨element, written, hwritten, htext, rfl⟩ := exists_derives_element hreader hvalue hskip
    obtain ⟨second, others, inside, hinside, rfl, rfl⟩ := ih hmore hend
    refine ⟨element, second :: others, written ++ ',' :: inside, .elements hwritten hinside, ?_,
      rfl⟩
    rw [htext, hcomma, List.append_assoc, List.cons_append]
  -- In all other cases the cut ends with a fault.
  | _ => cases hend

/-- So they were in any array. -/
theorem exists_derives_elements {values : List Value}
    (hread : readEach reader (elements text).parts = .ok values)
    (hend : (elements text).ending = .ok rest) :
    ∃ elements inside, Derives (.elements elements) inside ∧
      text = inside ++ ']' :: rest ∧ values = elements.map (·.value) := by
  unfold elements at hread hend
  split at hread
  next hnil =>
    rw [hnil] at hend
    cases hend
  -- The bracket closes at once, so there are blanks only.
  next behind hclose =>
    rw [hclose] at hend
    obtain rfl := Except.ok.inj hend
    obtain rfl := Except.ok.inj hread
    obtain ⟨blanks, hblanks, htext⟩ := exists_blanks text
    rw [hclose] at htext
    exact ⟨[], blanks, .noElements hblanks, htext, rfl⟩
  next hnil hclose =>
    split at hend
    next heq => exact (hnil heq).elim
    next heq => exact (hclose _ heq).elim
    next =>
      obtain ⟨first, more, inside, hinside, htext, hvalues⟩ :=
        exists_derives_elementsFrom hreader hread hend
      exact ⟨first :: more, inside, hinside, htext, hvalues⟩

/-- A member that is read was derived, from the blanks before its key on. -/
theorem exists_derives_member {whole afterKey start : List Char} {key : String}
    (hwhole : dropBlanks whole = '"' :: text) (hkey : readText text = .ok (key, afterKey))
    (hstart : (Member.mk key afterKey).value = .ok start) (hread : reader start = .ok value)
    (hskip : skipValue [] start = .ok rest) :
    ∃ (entry : Entry) (written : List Char), Derives (.member entry) written ∧
      whole = written ++ dropBlanks rest ∧ (entry.key, entry.value) = (key, value) := by
  obtain ⟨source, hdenotes, rfl⟩ := exists_denotes_of_readText hkey
  obtain ⟨behind, hcolon, rfl⟩ := map_eq_ok_iff.1 hstart
  obtain ⟨element, written, hwritten, rfl, rfl⟩ := exists_derives_element hreader hread hskip
  obtain ⟨before, hbefore, hwhole'⟩ := exists_blanks whole
  obtain ⟨between, hbetween, hafter⟩ := exists_blanks afterKey
  rw [eq_of_takeColon hcolon] at hafter
  -- Blanks may stand before the key and behind it.
  refine ⟨⟨element, key⟩, _, .member hbefore hdenotes hbetween hwritten, ?_, rfl⟩
  rw [hwhole', hwhole, hafter]
  simp only [List.append_assoc, List.cons_append]

/-- Members that are read up to their brace were derived, if there is a first. -/
theorem exists_derives_membersFrom {pairs : List (String × Value)} {whole : List Char}
    (hwhole : dropBlanks whole = '"' :: text)
    (hread : readMembers reader (membersFrom text).parts = .ok pairs)
    (hend : (membersFrom text).ending = .ok rest) :
    ∃ first more inside, Derives (.members (first :: more)) inside ∧ whole = inside ++ '}' :: rest ∧
      pairs = (first :: more).map fun entry => (entry.key, entry.value) := by
  -- The key is told from the quote in front of it, so the text is that from the last comma or brace
  -- on.
  fun_induction membersFrom text generalizing pairs whole with
  | case5 text key afterKey hkey member start hstart behind hskip rest' =>
    rename_i hclose
    obtain rfl := Except.ok.inj hend
    obtain ⟨start', value, more, hstart', hvalue, hmore, rfl⟩ := readMembers_cons_eq_ok_iff.1 hread
    obtain rfl := Except.ok.inj (hstart.symm.trans hstart')
    obtain rfl := Except.ok.inj hmore
    obtain ⟨entry, written, hwritten, rfl, hentry⟩ :=
      exists_derives_member hreader hwhole hkey hstart hvalue hskip
    rw [hclose, ← hentry]
    exact ⟨entry, [], written, .lastMember hwritten, rfl, rfl⟩
  | case8 text key afterKey hkey member start hstart behind hskip next hcomma text' hquote =>
    rename_i ih
    obtain ⟨start', value, more, hstart', hvalue, hmore, rfl⟩ := readMembers_cons_eq_ok_iff.1 hread
    obtain rfl := Except.ok.inj (hstart.symm.trans hstart')
    obtain ⟨entry, written, hwritten, rfl, hentry⟩ :=
      exists_derives_member hreader hwhole hkey hstart hvalue hskip
    obtain ⟨second, others, inside, hinside, rfl, rfl⟩ := ih hquote hmore hend
    rw [hcomma, ← hentry]
    refine ⟨entry, second :: others, written ++ ',' :: inside, .members hwritten hinside, ?_, rfl⟩
    rw [List.append_assoc, List.cons_append]
  | _ => cases hend

/-- So they were in any object. -/
theorem exists_derives_members {pairs : List (String × Value)}
    (hread : readMembers reader (members text).parts = .ok pairs)
    (hend : (members text).ending = .ok rest) :
    ∃ entries inside, Derives (.members entries) inside ∧ text = inside ++ '}' :: rest ∧
      pairs = entries.map fun entry => (entry.key, entry.value) := by
  unfold members at hread hend
  split at hread
  next hnil =>
    rw [hnil] at hend
    cases hend
  next behind hclose =>
    rw [hclose] at hend
    obtain rfl := Except.ok.inj hend
    obtain rfl := Except.ok.inj hread
    obtain ⟨blanks, hblanks, htext⟩ := exists_blanks text
    rw [hclose] at htext
    exact ⟨[], blanks, .noMembers hblanks, htext, rfl⟩
  next behind hquote =>
    rw [hquote] at hend
    obtain ⟨first, more, inside, hinside, htext, hpairs⟩ :=
      exists_derives_membersFrom hreader hquote hread hend
    exact ⟨first :: more, inside, hinside, htext, hpairs⟩
  -- Anything else was refused at its first character.
  next hnil hclose hquote =>
    split at hend
    next heq => exact (hnil heq).elim
    next heq => exact (hclose _ heq).elim
    next heq => exact (hquote _ heq).elim
    next => cases hend

end Parts

/-- What follows a token is what is left when it has been passed over. -/
theorem Derives.eq_rest {value : Value} {token text behind rest : List Char}
    (h : Derives (.value value) token) (hstart : dropBlanks text = token ++ behind)
    (hends : EndsToken value behind) (hskip : skipValue [] text = .ok rest) : behind = rest := by
  have hsame : dropBlanks text = dropBlanks (token ++ behind) := by rw [hstart, h.dropBlanks_eq]
  have hpassed :=
    (skipValue_congr hsame).trans ((h.skipped [] behind hends).trans (skipRest_nil behind))
  exact Except.ok.inj (hpassed.symm.trans hskip)

/-- **What is read was derived.** -/
theorem isSound_readValue (budget : Nat) : IsSound (readValue budget) := by
  -- The induction is on the budget, since the parts of a container are read with one less.
  induction budget using Nat.strong_induction_on with
  | _ budget ih =>
    intro text rest value hread hskip
    obtain ⟨blanks, hblanks, htext⟩ := exists_blanks text
    -- The blanks in front are not read, so it is enough to find the token.
    suffices h : ∃ token, dropBlanks text = token ++ rest ∧ Derives (.value value) token by
      obtain ⟨token, hstart, htoken⟩ := h
      rw [hstart] at htext
      exact ⟨blanks, token, hblanks, htext, htoken⟩
    by_cases hsquare : ∃ inside, dropBlanks text = '[' :: inside
    · obtain ⟨_, hopen⟩ := hsquare
      obtain ⟨less, values, rfl, rfl, hvalues, behind, hend⟩ := (readValue_square hopen).1 hread
      -- The parts were read with `less`, and so `ih` says that they were derived.
      have hless := ih less (Nat.lt_succ_self less)
      obtain ⟨elements, inside, hinside, rfl, rfl⟩ := exists_derives_elements hless hvalues hend
      have htoken := Derives.array hinside
      have hstart : dropBlanks text = '[' :: (inside ++ [']']) ++ behind := by
        rw [hopen, List.cons_append, List.append_assoc, List.singleton_append]
      obtain rfl := htoken.eq_rest hstart (fun _ h => nomatch h) hskip
      exact ⟨_, hstart, htoken⟩
    · by_cases hcurly : ∃ inside, dropBlanks text = '{' :: inside
      · obtain ⟨_, hopen⟩ := hcurly
        obtain ⟨less, pairs, rfl, rfl, hpairs, behind, hend⟩ := (readValue_curly hopen).1 hread
        have hless := ih less (Nat.lt_succ_self less)
        obtain ⟨entries, inside, hinside, rfl, rfl⟩ := exists_derives_members hless hpairs hend
        have htoken := Derives.object hinside
        have hstart : dropBlanks text = '{' :: (inside ++ ['}']) ++ behind := by
          rw [hopen, List.cons_append, List.append_assoc, List.singleton_append]
        obtain rfl := htoken.eq_rest hstart (fun _ h => nomatch h) hskip
        exact ⟨_, hstart, htoken⟩
      · rw [readValue_scalar (not_exists.1 hsquare) (not_exists.1 hcurly)] at hread
        rw [skipValue_scalar (not_exists.1 hsquare) (not_exists.1 hcurly)] at hskip
        split at hskip
        next => cases hskip
        next behind hscalar =>
          rw [skipRest_nil] at hskip
          obtain rfl := Except.ok.inj hskip
          exact exists_derives_scalar hread hscalar

/-! ### Whole texts -/

/-- A text ends where its value does if there are only blanks behind. -/
theorem expectEnd_eq_ok_iff {text : List Char} :
    expectEnd text = .ok () ↔ ∃ rest, skipValue [] text = .ok rest ∧ AreBlanks rest := by
  rw [expectEnd]
  cases skipValue [] text with
  | error fault =>
    constructor
    · exact fun h => nomatch h
    · exact fun ⟨_, h, _⟩ => nomatch h
  | ok rest =>
    constructor
    · intro h
      obtain ⟨blanks, hblanks, hrest⟩ := exists_blanks rest
      cases hdrop : dropBlanks rest with
      | nil =>
        rw [hdrop, List.append_nil] at hrest
        exact ⟨rest, rfl, hrest ▸ hblanks⟩
      -- Anything but a blank behind the value is refused.
      | cons c more =>
        simp only [hdrop] at h
        cases h
    · rintro ⟨_, ⟨rfl⟩, hblanks⟩
      simp only [dropBlanks_blanks hblanks]

/-- A text that is derived is read as the value that it is derived for, up to its end, if that is
within the limits. -/
theorem Derives.readValue_eq_ok_iff {element : Element} {text : List Char}
    (h : Derives (.element element) text) :
    (∀ budget read, readValue budget text = .ok read ↔
      read = element.value ∧ element.value.Fits budget) ∧ expectEnd text = .ok () := by
  cases h with
  | @element _ before after hbefore htoken hafter =>
    have hends := hafter.endsNumber.endsToken element.value
    have hdrop := dropBlanks_append hbefore (element.token ++ after)
    refine ⟨fun budget read => ?_, expectEnd_eq_ok_iff.2 ⟨after, ?_, hafter⟩⟩
    · rw [readValue_congr hdrop]
      exact htoken.isRead budget after read hends
    · exact (skipValue_congr hdrop).trans
        ((htoken.skipped [] after hends).trans (skipRest_nil after))

/-- **Reading is recognition**: a text is read to its end as a value if and only if it is that
value, with blanks around it, and the value is within the limits. -/
theorem readValue_expectEnd_iff {budget : Nat} {text : List Char} {value : Value} :
    (readValue budget text = .ok value ∧ expectEnd text = .ok ()) ↔
      (∃ token, Derives (.element ⟨token, value⟩) text) ∧ value.Fits budget := by
  constructor
  · rintro ⟨hread, hend⟩
    -- What is left behind the value are blanks.
    obtain ⟨after, hskip, hafter⟩ := expectEnd_eq_ok_iff.1 hend
    obtain ⟨before, token, hbefore, rfl, htoken⟩ := isSound_readValue budget hread hskip
    have helement : Derives (.element ⟨token, value⟩) _ := .element hbefore htoken hafter
    exact ⟨⟨token, helement⟩, ((helement.readValue_eq_ok_iff.1 budget value).1 hread).2⟩
  · rintro ⟨⟨token, helement⟩, hfits⟩
    obtain ⟨hread, hend⟩ := helement.readValue_eq_ok_iff
    exact ⟨(hread budget value).2 ⟨rfl, hfits⟩, hend⟩

/-! ### Objects -/

section Object

variable {text : List Char} {entries : List Entry}

/-- An object is a value with blanks around it. -/
theorem IsObject.exists_element (h : IsObject text entries) :
    ∃ token, Derives (.element ⟨token, .object (entries.map fun entry => (entry.key, entry.value))⟩)
      text := by
  obtain ⟨before, inside, after, hbefore, hinside, hafter, rfl⟩ := h
  exact ⟨_, .element hbefore (.object hinside) hafter⟩

/-- Only an object starts with a brace. -/
theorem Derives.exists_members {value : Value} {token more : List Char}
    (h : Derives (.value value) token) (hopen : token = '{' :: more) :
    ∃ entries inside, Derives (.members entries) inside ∧ token = '{' :: (inside ++ ['}']) := by
  cases h with
  | object hinside => exact ⟨_, _, hinside, rfl⟩
  -- A number starts with its sign or a digit.
  | number hspelt =>
    obtain ⟨first, more', hspelling, hfirst⟩ := hspelt.exists_cons
    obtain rfl : first = '{' := (List.cons.inj (hspelling.symm.trans hopen)).1
    exact absurd hfirst (by decide)
  | _ => exact absurd (List.cons.inj hopen).1 (by decide)

/-- A value is an object if a brace is in front. -/
theorem Derives.exists_isObject {element : Element} {inside : List Char}
    (h : Derives (.element element) text) (hopen : dropBlanks text = '{' :: inside) :
    ∃ entries, IsObject text entries := by
  cases h with
  | @element _ before after hbefore htoken hafter =>
    rw [dropBlanks_append hbefore, htoken.dropBlanks_eq] at hopen
    obtain ⟨first, more, hfirst, -⟩ := htoken.exists_cons
    rw [hfirst, List.cons_append] at hopen
    obtain rfl : first = '{' := (List.cons.inj hopen).1
    obtain ⟨entries, inside, hinside, htext⟩ := htoken.exists_members hfirst
    rw [htext]
    exact ⟨entries, before, inside, after, hbefore, hinside, hafter, rfl⟩

/-- Each member of an object has the token of a value. -/
theorem IsObject.of_mem (h : IsObject text entries) :
    ∀ entry ∈ entries, Derives (.value entry.value) entry.token := by
  obtain ⟨before, inside, after, -, hinside, -, -⟩ := h
  exact fun entry hentry => hinside.of_mem hentry

/-- An object that has been entered falls into its members. -/
theorem IsObject.exists_parts (h : IsObject text entries) :
    ∃ inside parts after, dropBlanks text = '{' :: inside ∧ members inside = ⟨parts, .ok after⟩ ∧
      List.Forall₂ Entry.IsPart entries parts := by
  obtain ⟨before, inside, after, hbefore, hinside, hafter, rfl⟩ := h
  obtain ⟨parts, hparts, hall⟩ := hinside.members_append after
  refine ⟨inside ++ '}' :: after, parts, after, ?_, hparts, hall⟩
  rw [dropBlanks_append hbefore, List.cons_append, List.append_assoc, List.singleton_append]
  exact dropBlanks_cons (by decide) _

end Object

end Lineage.Json
