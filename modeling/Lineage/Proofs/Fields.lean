import Lineage.Text.Blank
import Lineage.Text.Split
import Mathlib.Data.List.TakeWhile

/-!
# Trimmed texts and their fields

A text falls into blanks, a text that neither starts nor ends with a blank, and blanks
(`Text.Trims`). The text in the middle is what trimming leaves (`Text.trims_iff`), and unless it is
empty, the blanks around it are determined as well (`Text.Trims.unique`).

A text is cut at its first bars, so that a field holds no bar unless it is the last one that there
may be. Cutting is said here by what it does to a text that is put together from a field and what
follows it (`Text.cut_of_isPiece`, `Text.cut_append_bar`), and any text is put together so
(`Text.exists_isPiece`).
-/

namespace Lineage.Text

/-! ### Trimming -/

/-- Whether there is nothing but blanks in a text. -/
def IsBlankText (text : String) : Prop :=
  ∀ c ∈ text.toList, isBlank c = true

/-- Whether a text neither starts nor ends with a blank. -/
structure IsTrimmed (text : String) : Prop where
  first : ∀ c ∈ text.toList.head?, isBlank c = false
  last : ∀ c ∈ text.toList.getLast?, isBlank c = false

/-- A text is put together from blanks, a text without blanks at its ends, and blanks. -/
structure Trims (raw before text after : String) : Prop where
  eq : raw = before ++ text ++ after
  before : IsBlankText before
  trimmed : IsTrimmed text
  after : IsBlankText after

/-- Blanks at the start are passed over, up to a text that does not start with one. -/
theorem dropWhile_isBlank_append {blanks text : List Char}
    (hblanks : ∀ c ∈ blanks, isBlank c = true) (hfirst : ∀ c ∈ text.head?, isBlank c = false) :
    (blanks ++ text).dropWhile isBlank = text := by
  rw [List.dropWhile_append_of_pos hblanks]
  cases text with
  | nil => rfl
  | cons c text => exact List.dropWhile_cons_of_neg (Bool.eq_false_iff.1 (hfirst c rfl))

/-- Blanks on both sides of a text that is trimmed are what trimming takes away. -/
theorem trim_append {before text after : List Char} (hbefore : ∀ c ∈ before, isBlank c = true)
    (hfirst : ∀ c ∈ text.head?, isBlank c = false) (hlast : ∀ c ∈ text.getLast?, isBlank c = false)
    (hafter : ∀ c ∈ after, isBlank c = true) : trim (before ++ text ++ after) = text := by
  have hreverse : ∀ c ∈ after.reverse, isBlank c = true :=
    fun c hmem => hafter c (List.mem_reverse.1 hmem)
  cases text with
  | nil =>
    -- There is nothing but blanks, and all of it is passed over from the start.
    have hall : ∀ c ∈ before ++ [] ++ after, isBlank c = true := by
      intro c hmem
      rw [List.append_nil, List.mem_append] at hmem
      exact hmem.elim (hbefore c) (hafter c)
    have hstart : trimStart (before ++ [] ++ after) = [] := List.dropWhile_eq_nil_iff.2 hall
    rw [trim, hstart]
    rfl
  | cons c text =>
    have hstart : trimStart (before ++ (c :: text) ++ after) = c :: text ++ after := by
      rw [List.append_assoc]
      exact dropWhile_isBlank_append hbefore hfirst
    -- Backwards, the text starts with its last character, which is no blank.
    have hend : (after.reverse ++ (c :: text).reverse).dropWhile isBlank = (c :: text).reverse := by
      refine dropWhile_isBlank_append hreverse ?_
      rw [List.head?_reverse]
      exact hlast
    rw [trim, hstart, trimEnd, List.reverse_append, hend, List.reverse_reverse]

/-- What is left behind the blanks that are passed over does not start with one. -/
theorem isBlank_of_head?_dropWhile {text : List Char} {c : Char}
    (h : c ∈ (text.dropWhile isBlank).head?) : isBlank c = false := by
  have hhead := List.head?_dropWhile_not isBlank text
  rw [Option.mem_def.1 h] at hhead
  exact hhead

/-- What trimming leaves is trimmed. -/
theorem isTrimmed_trimmed (raw : String) : IsTrimmed (trimmed raw) := by
  rw [trimmed]
  constructor
  · intro c hc
    rw [String.toList_ofList] at hc
    -- What is cut off at the end leaves the start as it was, unless nothing is left.
    have hprefix : trim raw.toList <+: trimStart raw.toList := by
      rw [trim, trimEnd, ← List.reverse_suffix, List.reverse_reverse]
      exact List.dropWhile_suffix isBlank
    obtain ⟨cut, hcut⟩ := hprefix
    have hfirst : c ∈ (raw.toList.dropWhile isBlank).head? := by
      rw [← trimStart, ← hcut, List.head?_append, Option.mem_def.1 hc]
      rfl
    exact isBlank_of_head?_dropWhile hfirst
  · intro c hc
    rw [String.toList_ofList, trim, trimEnd, List.getLast?_reverse] at hc
    exact isBlank_of_head?_dropWhile hc

/-- Every text is trimmed to something. -/
theorem exists_trims (raw : String) : ∃ before after, Trims raw before (trimmed raw) after := by
  have hblank : ∀ text : List Char, ∀ c ∈ text.takeWhile isBlank, isBlank c = true :=
    fun text c hmem => List.mem_takeWhile_imp hmem
  refine ⟨String.ofList (raw.toList.takeWhile isBlank),
    String.ofList ((trimStart raw.toList).reverse.takeWhile isBlank).reverse,
    ⟨?_, ?_, isTrimmed_trimmed raw, ?_⟩⟩
  · -- The three parts make up the text: the blanks in front, the trimmed text, the blanks behind.
    have hend : trim raw.toList ++ ((trimStart raw.toList).reverse.takeWhile isBlank).reverse =
        trimStart raw.toList := by
      rw [trim, trimEnd, ← List.reverse_append, List.takeWhile_append_dropWhile,
        List.reverse_reverse]
    rw [trimmed, ← String.ofList_append, ← String.ofList_append, List.append_assoc, hend, trimStart,
      List.takeWhile_append_dropWhile, String.ofList_toList]
  · intro c hc
    rw [String.toList_ofList] at hc
    exact hblank _ c hc
  · intro c hc
    rw [String.toList_ofList, List.mem_reverse] at hc
    exact hblank _ c hc

/-- The text between the blanks is the trimmed one. -/
theorem Trims.text_eq {raw before text after : String} (h : Trims raw before text after) :
    text = Text.trimmed raw := by
  rw [Text.trimmed, h.eq, String.toList_append, String.toList_append,
    trim_append h.before h.trimmed.first h.trimmed.last h.after, String.ofList_toList]

/-- **The blanks around a text are determined**, unless there is nothing but blanks. -/
theorem Trims.unique {raw before text after before' text' after' : String}
    (h : Trims raw before text after) (h' : Trims raw before' text' after') (htext : text ≠ "") :
    before = before' ∧ text = text' ∧ after = after' := by
  obtain rfl : text = text' := h.text_eq.trans h'.text_eq.symm
  -- The blanks at the start go up to the first character that is none.
  have hstart : ∀ {blanks behind : String}, raw = blanks ++ text ++ behind → IsBlankText blanks →
      raw.toList.takeWhile isBlank = blanks.toList := by
    intro blanks behind hraw hblanks
    rw [hraw, String.append_assoc, String.toList_append, String.toList_append,
      List.takeWhile_append_of_pos hblanks]
    cases htoList : text.toList with
    | nil => exact absurd (String.toList_eq_nil_iff.1 htoList) htext
    | cons c rest =>
      have hc : isBlank c = false := h.trimmed.first c (by rw [htoList]; rfl)
      rw [List.cons_append, List.takeWhile_cons_of_neg (Bool.eq_false_iff.1 hc), List.append_nil]
  have hbefore : before = before' :=
    String.toList_inj.1 ((hstart h.eq h.before).symm.trans (hstart h'.eq h'.before))
  subst hbefore
  exact ⟨rfl, rfl, (String.append_right_inj _).1 (h.eq.symm.trans h'.eq)⟩

/-! ### Fields -/

/-- Whether a text may be a field: there is no bar in it. -/
def IsPiece (text : String) : Prop :=
  '|' ∉ text.toList

instance (text : String) : Decidable (IsPiece text) :=
  inferInstanceAs (Decidable ('|' ∉ text.toList))

/-- Whether a text may follow a field: it is empty, or a bar and anything else. -/
def IsRest (text : String) : Prop :=
  text = "" ∨ ∃ more, text = "|" ++ more

/-- The fields of a text between bars, at most `limit` of them. -/
def cut (limit : Nat) (text : String) : List String :=
  (splitAtMost '|' limit text.toList).map String.ofList

/-- Every text is a field and what may follow it. -/
theorem exists_isPiece (text : String) :
    ∃ first rest, IsPiece first ∧ IsRest rest ∧ text = first ++ rest := by
  by_cases hbar : '|' ∈ text.toList
  · -- The field goes up to the first bar.
    obtain ⟨first, more, htext, hfirst⟩ := List.eq_append_cons_of_mem hbar
    refine ⟨String.ofList first, "|" ++ String.ofList more, ?_, .inr ⟨_, rfl⟩, ?_⟩
    · rwa [IsPiece, String.toList_ofList]
    · rw [← String.toList_inj, htext, String.toList_append, String.toList_append,
        String.toList_ofList, String.toList_ofList, String.toList_ofList, List.singleton_append]
  · exact ⟨text, "", hbar, .inl rfl, (String.append_empty).symm⟩

/-- The bar is no character of a field. -/
theorem IsPiece.ne_bar {text : String} (h : IsPiece text) :
    ∀ c ∈ text.toList, (c != '|') = true := by
  intro c hmem
  refine bne_iff_ne.2 ?_
  rintro rfl
  exact h hmem

/-- A field ends where the first bar is. -/
theorem takeWhile_append_of_isRest {first rest : String} (hfirst : IsPiece first)
    (hrest : IsRest rest) : (first ++ rest).toList.takeWhile (· != '|') = first.toList := by
  rw [String.toList_append, List.takeWhile_append_of_pos hfirst.ne_bar]
  obtain rfl | ⟨more, rfl⟩ := hrest
  · exact List.append_nil _
  · rw [String.toList_append]
    exact List.append_nil _

/-- **A text is a field and what follows it in one way only.** -/
theorem append_inj_of_isPiece {first rest first' rest' : String} (hfirst : IsPiece first)
    (hrest : IsRest rest) (hfirst' : IsPiece first') (hrest' : IsRest rest')
    (h : first ++ rest = first' ++ rest') : first = first' ∧ rest = rest' := by
  -- Either field is what comes before the first bar.
  have hsame : first = first' := by
    rw [← String.toList_inj, ← takeWhile_append_of_isRest hfirst hrest, h,
      takeWhile_append_of_isRest hfirst' hrest']
  subst hsame
  exact ⟨rfl, (String.append_right_inj _).1 h⟩

/-- If there may be one field only, it is the whole text. -/
@[simp] theorem cut_one (text : String) : cut 1 text = [text] := by
  rw [cut, splitAtMost, List.map_singleton, String.ofList_toList]

/-- A text without bars has one field. -/
theorem cut_of_isPiece (limit : Nat) {text : String} (h : IsPiece text) :
    cut (limit + 1) text = [text] := by
  cases limit with
  | zero => exact cut_one text
  | succ limit =>
    have hall : text.toList.dropWhile (· != '|') = [] := List.dropWhile_eq_nil_iff.2 h.ne_bar
    rw [cut, splitAtMost, hall, List.map_singleton, String.ofList_toList]

/-- A field with a bar behind it is the first, if there may be another one. -/
theorem cut_append_bar (limit : Nat) {first : String} (h : IsPiece first) (rest : String) :
    cut (limit + 2) (first ++ ("|" ++ rest)) = first :: cut (limit + 1) rest := by
  have htake := takeWhile_append_of_isRest h (.inr ⟨rest, rfl⟩)
  have hdrop : (first ++ ("|" ++ rest)).toList.dropWhile (· != '|') = '|' :: rest.toList := by
    rw [String.toList_append, List.dropWhile_append_of_pos h.ne_bar, String.toList_append]
    rfl
  rw [cut, splitAtMost, hdrop, htake, List.map_cons, String.ofList_toList]
  rfl

/-- Whatever follows a field, it is the first. -/
theorem exists_cut_append (limit : Nat) {first rest : String} (hfirst : IsPiece first)
    (hrest : IsRest rest) : ∃ more, cut (limit + 2) (first ++ rest) = first :: more := by
  obtain rfl | ⟨more, rfl⟩ := hrest
  · exact ⟨[], by rw [String.append_empty, cut_of_isPiece _ hfirst]⟩
  · exact ⟨_, cut_append_bar limit hfirst more⟩

end Lineage.Text
