import Lineage.Proofs.Recognition
import Lineage.Proofs.Rendering

/-!
# What an object cannot complete

A text that breaks off is not completed by writing an object behind it: if the two together are one
JSON text, then there is nothing but blanks in front of the object (`areBlanks_of_expectEnd`).
Nothing is asked of the text that breaks off, the *front*.

The two are passed over as one. Where the object starts, it is taken for a value or for nothing: it
cannot go on a word, a number or an escape, and it is no separator, so all of these leave the object
as it is (`LeavesObject`). Only a string goes on into it, up to the quote in front of the first key,
and what follows there is `Stray`. And if the object is taken for a value inside a bracket, then
nothing is left that could close the bracket. That no front but a blank one is passed over with the
object (`StaysOpen`) goes by induction on the front, of which every step takes something.
-/

namespace Lineage.Json

/-- A token that does not hold some character ends in front of it. -/
theorem exists_of_append_eq (token : List Char) {front more rest : List Char} {c : Char}
    (h : front ++ c :: more = token ++ rest) (hc : c ∉ token) :
    ∃ later, front = token ++ later ∧ rest = later ++ c :: more := by
  rcases List.append_eq_append_iff.1 h with ⟨later, rfl, hmore⟩ | ⟨later, rfl, rfl⟩
  · -- Either the token reaches up to the character, or it would have to hold it.
    cases later with
    | nil => exact ⟨[], by simp, hmore.symm⟩
    | cons d later =>
      obtain ⟨rfl, -⟩ := List.cons.inj hmore
      exact absurd (by simp) hc
  · exact ⟨later, rfl, rfl⟩

/-! ### Stray texts -/

/-- Whether a text starts with something that can stand neither behind a value nor behind a key. -/
def Stray (text : List Char) : Prop :=
  ∃ c more, dropBlanks text = c :: more ∧ c ≠ ',' ∧ c ≠ ']' ∧ c ≠ '}' ∧ c ≠ ':'

namespace Stray

variable {text rest : List Char}

/-- A stray text has something in it that is no blank. -/
theorem not_areBlanks (h : Stray text) : ¬ AreBlanks text := by
  obtain ⟨c, more, htext, -⟩ := h
  intro hblanks
  rw [dropBlanks_blanks hblanks] at htext
  cases htext

/-- Behind a value, nothing is passed over up to the end of a stray text. -/
theorem not_areBlanks_of_skipRest (h : Stray text) {opened : List Bracket}
    (hskip : skipRest opened text = .ok rest) : ¬ AreBlanks rest := by
  obtain ⟨c, more, htext, hcomma, hsquare, hcurly, -⟩ := id h
  cases opened with
  | nil =>
    -- With nothing open, all of the text is left.
    rw [skipRest_nil] at hskip
    exact Except.ok.inj hskip ▸ h.not_areBlanks
  | cons bracket opened =>
    cases bracket with
    -- A comma or a bracket is due, and the text starts with neither.
    | square =>
      rw [skipRest] at hskip
      split at hskip
      next => cases hskip
      next heq => exact absurd (List.cons.inj (htext.symm.trans heq)).1 hcomma
      next heq => exact absurd (List.cons.inj (htext.symm.trans heq)).1 hsquare
      next => cases hskip
    | curly =>
      rw [skipRest] at hskip
      split at hskip
      next => cases hskip
      next heq => exact absurd (List.cons.inj (htext.symm.trans heq)).1 hcomma
      next heq => exact absurd (List.cons.inj (htext.symm.trans heq)).1 hcurly
      next => cases hskip

/-- A stray text does not go on with a colon. -/
theorem takeColon_ne_ok (h : Stray text) : takeColon text ≠ .ok rest := by
  obtain ⟨c, more, htext, -, -, -, hcolon⟩ := h
  intro htake
  exact hcolon (List.cons.inj (htext.symm.trans (eq_of_takeColon htake))).1

end Stray

/-! ### What ends in the front -/

section Front

variable {key front rest : List Char}

/-- Whether something has been taken from the front, and the rest of the front is left with the
object behind it. -/
def LeavesObject (key front rest : List Char) : Prop :=
  ∃ later, later.length < front.length ∧ rest = later ++ '{' :: '"' :: key

/-- More in front of the front makes no difference. -/
theorem LeavesObject.append {later : List Char} (h : LeavesObject key later rest)
    (token : List Char) : LeavesObject key (token ++ later) rest := by
  obtain ⟨last, hlength, hrest⟩ := h
  exact ⟨last, by rw [List.length_append]; omega, hrest⟩

/-- What is taken from what is left of the front is taken from the front too. -/
theorem LeavesObject.trans {inside : List Char} (h : LeavesObject key front inside)
    (hstep : ∀ later, inside = later ++ '{' :: '"' :: key → LeavesObject key later rest) :
    LeavesObject key front rest := by
  obtain ⟨later, hlater, hinside⟩ := h
  obtain ⟨last, hlast, hrest⟩ := hstep later hinside
  exact ⟨last, hlast.trans hlater, hrest⟩

/-- What is taken behind the blanks of the front is taken from the front. -/
theorem leavesObject_of_dropBlanks (h : LeavesObject key (dropBlanks front) rest) :
    LeavesObject key front rest := by
  obtain ⟨blanks, -, hfront⟩ := exists_blanks front
  rw [hfront]
  exact h.append blanks

/-- A token that does not hold a brace is taken from the front. -/
theorem leavesObject_of_append_eq (token : List Char)
    (h : front ++ '{' :: '"' :: key = token ++ rest) (htoken : '{' ∉ token) (hne : token ≠ []) :
    LeavesObject key front rest := by
  obtain ⟨later, rfl, rfl⟩ := exists_of_append_eq token h htoken
  have hpos := List.length_pos_iff.2 hne
  exact ⟨later, by rw [List.length_append]; omega, rfl⟩

/-- Neither the letters of an escape nor its digits are a brace. -/
theorem brace_notMem_of_codeUnit? {a b c d : Char} (h : (codeUnit? a b c d).isSome = true) :
    '{' ∉ ['\\', 'u', a, b, c, d] := by
  have hbrace : hexDigit? '{' = none := by decide
  intro hmem
  simp only [List.mem_cons, List.not_mem_nil, or_false] at hmem
  rcases hmem with hmem | hmem | rfl | rfl | rfl | rfl <;> simp_all [codeUnit?]

/-- A string that is open goes on to a quote in the front, or else to the first one of the
object. -/
theorem skipText_front (h : skipText (front ++ '{' :: '"' :: key) = .ok rest) :
    LeavesObject key front rest ∨ rest = key := by
  generalize htext : front ++ '{' :: '"' :: key = text at h
  -- The cases are those of what the string goes on with; the front is what is left of it.
  fun_induction skipText text generalizing front with
  | case1 => cases h
  | case2 behind =>
    obtain rfl := Except.ok.inj h
    -- The quote is there.
    exact .inl (leavesObject_of_append_eq ['"'] htext (by decide) (by simp))
  | case3 a b c d behind hunit ih =>
    obtain ⟨later, rfl, rfl⟩ :=
      exists_of_append_eq ['\\', 'u', a, b, c, d] htext (brace_notMem_of_codeUnit? hunit)
    exact (ih rfl h).imp_left fun hleaves => hleaves.append _
  | case4 => cases h
  | case5 => cases h
  | case6 c behind hunit hletter hescape ih =>
    -- No escape is one with a brace, so the front does not end between a backslash and its letter.
    have hbrace : '{' ∉ ['\\', c] := by
      intro hmem
      obtain rfl : '{' = c := by simpa using hmem
      exact absurd hescape (by decide)
    obtain ⟨later, rfl, rfl⟩ := exists_of_append_eq ['\\', c] htext hbrace
    exact (ih rfl h).imp_left fun hleaves => hleaves.append _
  | case7 => cases h
  | case8 => cases h
  | case9 => cases h
  | case10 c behind _ _ _ _ _ _ ih =>
    cases front with
    | nil =>
      -- The string goes on with the brace, and the quote behind it is the end.
      obtain ⟨-, rfl⟩ := List.cons.inj htext
      rw [skipText] at h
      exact .inr (Except.ok.inj h).symm
    | cons d later =>
      obtain ⟨-, rfl⟩ := List.cons.inj htext
      exact (ih rfl h).imp_left fun hleaves => hleaves.append [d]

/-- A number ends in the front: a brace is no part of one. -/
theorem skipNumber_front {text : List Char} (h : Number.skip text = .ok rest)
    (htext : front ++ '{' :: '"' :: key = text) : LeavesObject key front rest := by
  rw [Number.skip] at h
  split at h
  next number behind hread =>
    obtain rfl := Except.ok.inj h
    obtain ⟨hspelt, rfl⟩ := Number.isSpelt_of_read hread
    obtain ⟨first, more, hspelling, -⟩ := hspelt.exists_cons
    have hbrace : '{' ∉ number.spelling := by
      intro hmem
      have hnumeral : Number.IsNumeral '{' := hspelt.isNumeral_of_mem hmem
      simp [Number.IsNumeral, isDigit] at hnumeral
    exact leavesObject_of_append_eq number.spelling htext hbrace (hspelling ▸ List.cons_ne_nil _ _)
  next => cases h

/-- So does a word. -/
theorem readWord_front {first : Char} {letters text : List Char}
    (h : readWord letters text = .ok rest) (htext : front ++ '{' :: '"' :: key = first :: text)
    (hletters : '{' ∉ first :: letters) : LeavesObject key front rest := by
  rw [eq_of_readWord h] at htext
  exact leavesObject_of_append_eq (first :: letters) htext hletters (List.cons_ne_nil _ _)

/-- A value that is no container ends in the front, or else it is a string that goes on
into the object. -/
theorem skipScalar_front (h : skipScalar (front ++ '{' :: '"' :: key) = .ok rest) :
    LeavesObject key front rest ∨ rest = key := by
  generalize htext : front ++ '{' :: '"' :: key = text at h
  unfold skipScalar at h
  split at h
  next => cases h
  next => exact .inl (readWord_front h htext (by decide))
  next => exact .inl (readWord_front h htext (by decide))
  next => exact .inl (readWord_front h htext (by decide))
  -- A string starts in the front, for the object itself is none.
  next behind =>
    cases front with
    | nil => exact absurd (List.cons.inj htext).1 (by decide)
    | cons c front =>
      obtain ⟨-, rfl⟩ := List.cons.inj htext
      exact (skipText_front h).imp_left fun hleaves => hleaves.append [c]
  next => exact .inl (skipNumber_front h htext)
  next =>
    split at h
    · exact .inl (skipNumber_front h htext)
    · cases h

/-- Blanks in the front are dropped, and nothing of the object. -/
theorem dropBlanks_front (more : List Char) :
    dropBlanks (front ++ '{' :: more) = dropBlanks front ++ '{' :: more := by
  induction front with
  | nil => rfl
  | cons c front ih =>
    rw [List.cons_append, dropBlanks, dropBlanks, List.dropWhile_cons, List.dropWhile_cons]
    split
    · exact ih
    · rfl

/-- What comes first behind blanks is taken from the front, unless it is the brace of the object. -/
theorem leavesObject_of_dropBlanks_eq {c : Char}
    (h : dropBlanks (front ++ '{' :: '"' :: key) = c :: rest) (hne : c ≠ '{' ∨ ¬ AreBlanks front) :
    LeavesObject key front rest := by
  rw [dropBlanks_front] at h
  obtain ⟨blanks, hblanks, hfront⟩ := exists_blanks front
  cases hdrop : dropBlanks front with
  | nil =>
    rw [hdrop] at h hfront
    rw [List.append_nil] at hfront
    -- The front is blank, so what comes first is the brace.
    exact hne.elim (fun hc => absurd (List.cons.inj h).1.symm hc) fun hfilled =>
      absurd (hfront ▸ hblanks) hfilled
  | cons d later =>
    rw [hdrop] at h hfront
    obtain ⟨-, rfl⟩ := List.cons.inj h
    exact ⟨later, by rw [hfront, List.length_append, List.length_cons]; omega, rfl⟩

/-- So does a colon, with the blanks before it. -/
theorem takeColon_front (h : takeColon (front ++ '{' :: '"' :: key) = .ok rest) :
    LeavesObject key front rest :=
  leavesObject_of_dropBlanks_eq (eq_of_takeColon h) (.inl (by decide))

/-- A key and its colon end in the front. -/
theorem skipKey_front (hkey : Stray key) (h : skipKey (front ++ '{' :: '"' :: key) = .ok rest) :
    LeavesObject key front rest := by
  unfold skipKey at h
  split at h
  next => cases h
  next inside hinside =>
    refine (leavesObject_of_dropBlanks_eq hinside (.inl (by decide))).trans fun later hlater => ?_
    subst hlater
    split at h
    next => cases h
    next behind hskip =>
      rcases skipText_front hskip with hleaves | rfl
      · -- The colon stands in what the string leaves of the front.
        exact hleaves.trans fun last hlast => takeColon_front (hlast ▸ h)
      · exact absurd h hkey.takeColon_ne_ok
  next => cases h

/-- What comes next behind blanks is taken from the front too, unless it is a brace. -/
theorem LeavesObject.dropBlanks_eq {inside : List Char} (h : LeavesObject key front inside)
    {c : Char} (hdrop : dropBlanks inside = c :: rest) (hc : c ≠ '{') :
    LeavesObject key front rest :=
  h.trans fun _ hinside => leavesObject_of_dropBlanks_eq (hinside ▸ hdrop) (.inl hc)

/-- A key that starts in what is left of the front ends there too. -/
theorem LeavesObject.skipKey (hkey : Stray key) {behind start : List Char}
    (h : LeavesObject key front behind) (hskip : Json.skipKey behind = .ok start) :
    LeavesObject key front start :=
  h.trans fun _ hbehind => skipKey_front hkey (hbehind ▸ hskip)

/-- What is open is not closed by the end of a text. -/
theorem skipRest_nil_eq_ok {opened : List Bracket} (h : skipRest opened [] = .ok rest) :
    opened = [] := by
  cases opened with
  | nil => rfl
  | cons bracket opened =>
    rw [skipRest.eq_def] at h
    cases bracket <;> cases h

/-! ### What stays open -/

/-- Whether a front is not passed over, with the object behind it, up to the end: not at all behind
a value, and where a value is due only if the front is blank and nothing is open around it. -/
structure StaysOpen (key front : List Char) : Prop where
  value : ∀ opened rest, skipValue opened (front ++ '{' :: '"' :: key) = .ok rest → AreBlanks rest →
    AreBlanks front ∧ opened = []
  rest : ∀ opened rest, skipRest opened (front ++ '{' :: '"' :: key) = .ok rest → ¬ AreBlanks rest

section Step

variable {opened : List Bracket} (hkey : Stray key)
  (ih : ∀ later : List Char, later.length < front.length → StaysOpen key later)
include ih

/-- Inside a bracket, no value is passed over up to the end. -/
theorem LeavesObject.not_skipValue_cons {behind : List Char} (h : LeavesObject key front behind)
    (bracket : Bracket) (hskip : skipValue (bracket :: opened) behind = .ok rest) :
    ¬ AreBlanks rest := by
  obtain ⟨later, hlater, rfl⟩ := h
  intro hrest
  exact nomatch ((ih later hlater).value _ _ hskip hrest).2

/-- What stands behind a value in the front is not passed over up to the end. -/
theorem LeavesObject.not_skipRest {behind : List Char} (h : LeavesObject key front behind)
    (hskip : skipRest opened behind = .ok rest) : ¬ AreBlanks rest := by
  obtain ⟨later, hlater, rfl⟩ := h
  exact (ih later hlater).rest _ _ hskip

include hkey

/-- A value that starts in the front is not passed over up to the end. -/
theorem not_areBlanks_of_skipValue (hfront : ¬ AreBlanks front)
    (h : skipValue opened (front ++ '{' :: '"' :: key) = .ok rest) : ¬ AreBlanks rest := by
  rw [skipValue.eq_def] at h
  split at h
  next inside hopen =>
    have hinside : LeavesObject key front inside :=
      leavesObject_of_dropBlanks_eq hopen (.inr hfront)
    split at h
    next => cases h
    next behind hclose => exact (hinside.dropBlanks_eq hclose (by decide)).not_skipRest ih h
    next => exact hinside.not_skipValue_cons ih .square h
  next inside hopen =>
    have hinside : LeavesObject key front inside :=
      leavesObject_of_dropBlanks_eq hopen (.inr hfront)
    split at h
    next => cases h
    next behind hclose => exact (hinside.dropBlanks_eq hclose (by decide)).not_skipRest ih h
    next =>
      split at h
      next => cases h
      next start hskip => exact (hinside.skipKey hkey hskip).not_skipValue_cons ih .curly h
  next =>
    split at h
    next => cases h
    next behind hskip =>
      rw [dropBlanks_front] at hskip
      -- A scalar ends in the front, or it is a string that has eaten the first quote of the object.
      rcases skipScalar_front hskip with hleaves | rfl
      · exact (leavesObject_of_dropBlanks hleaves).not_skipRest ih h
      · exact hkey.not_areBlanks_of_skipRest h

/-- Nor is anything behind a value. -/
theorem not_areBlanks_of_skipRest (h : skipRest opened (front ++ '{' :: '"' :: key) = .ok rest) :
    ¬ AreBlanks rest := by
  unfold Json.skipRest at h
  split at h
  next =>
    -- The brace is no blank.
    obtain rfl := Except.ok.inj h
    intro hblanks
    exact absurd (hblanks '{' (by simp)) (by decide)
  next opened =>
    split at h
    next => cases h
    next behind hcomma =>
      exact
        (leavesObject_of_dropBlanks_eq hcomma (.inl (by decide))).not_skipValue_cons ih .square h
    next behind hclose =>
      exact (leavesObject_of_dropBlanks_eq hclose (.inl (by decide))).not_skipRest ih h
    next => cases h
  next opened =>
    split at h
    next => cases h
    next behind hcomma =>
      split at h
      next => cases h
      next start hskip =>
        have hleaves := (leavesObject_of_dropBlanks_eq hcomma (.inl (by decide))).skipKey hkey hskip
        exact hleaves.not_skipValue_cons ih .curly h
    next behind hclose =>
      exact (leavesObject_of_dropBlanks_eq hclose (.inl (by decide))).not_skipRest ih h
    next => cases h

end Step

/-- **What is open in front of an object stays open.** -/
theorem staysOpen (hkey : Stray key)
    (hobject : ∀ opened, skipValue opened ('{' :: '"' :: key) = skipRest opened [])
    (front : List Char) : StaysOpen key front := by
  -- Every step takes something from the front, so the rest of it may be supposed to stay open.
  induction hlength : front.length using Nat.strong_induction_on generalizing front with
  | _ n ih =>
    have ih' : ∀ later : List Char, later.length < front.length → StaysOpen key later :=
      fun later hlater => ih later.length (hlength ▸ hlater) later rfl
    constructor
    · intro opened rest hskip hrest
      by_cases hfront : AreBlanks front
      · -- Then the object is the value, and only the end is left to close what is open.
        rw [skipValue_congr (dropBlanks_append hfront _), hobject] at hskip
        exact ⟨hfront, skipRest_nil_eq_ok hskip⟩
      · exact absurd hrest (not_areBlanks_of_skipValue hkey ih' hfront hskip)
    · intro opened rest hskip
      exact not_areBlanks_of_skipRest hkey ih' hskip

end Front

/-- **An object completes blanks only.** If a text with an object behind it is one JSON text,
whatever the text is, then it is blank. Of the object it is asked that its first key does not start
like a separator. -/
theorem areBlanks_of_expectEnd {value : Value} {key front : List Char} (hspelt : value.IsSpelt)
    (hvalue : value.render = '{' :: '"' :: key) (hkey : Stray key)
    (h : expectEnd (front ++ value.render) = .ok ()) : AreBlanks front := by
  have hobject : ∀ opened, skipValue opened ('{' :: '"' :: key) = skipRest opened [] := by
    intro opened
    have hskipped := hspelt.derives_render.skipped opened [] (endsNumber_nil.endsToken value)
    rwa [List.append_nil, hvalue] at hskipped
  obtain ⟨rest, hskip, hrest⟩ := expectEnd_eq_ok_iff.1 h
  rw [hvalue] at hskip
  exact ((staysOpen hkey hobject front).value [] rest hskip hrest).1

end Lineage.Json
