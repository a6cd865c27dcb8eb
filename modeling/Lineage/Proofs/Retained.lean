import Mathlib.Data.List.Destutter
import Mathlib.Data.List.Nodup

/-!
# What is retained of a list

Of the entities that tell the states of one cell, the table of cells keeps the first and then those
that bring another value. This is said here of any elements that may have been written and may have
a value: `retained` is the first element with what `List.destutter` leaves of the written ones after
it. One more element at the end is kept or dropped as it compares with the one kept last, and with
nothing before (`extended`, `retained_append_singleton`).

The changes of a cell are the pairs of neighbours in what is retained, `stepsOf`.
-/

namespace Lineage

/-! ### Lists from their end -/

section Lists

variable {α : Type} {R : α → α → Prop} [DecidableRel R]

/-- One more element is dropped or kept as it compares with the one kept last. -/
theorem destutter'_append_singleton {a latest : α} {as : List α} (b : α)
    (h : (as.destutter' R a).getLast? = some latest) :
    (as ++ [b]).destutter' R a =
      if R latest b then as.destutter' R a ++ [b] else as.destutter' R a := by
  induction as generalizing a with
  | nil =>
    obtain rfl : a = latest := by simpa using h
    rw [List.nil_append, List.destutter'_cons, List.destutter'_nil, List.destutter'_nil,
      List.singleton_append]
  | cons c as ih =>
    by_cases hac : R a c
    · -- `c` is kept, and what is kept last is found behind it.
      rw [List.destutter'_cons_pos as hac] at h
      rw [List.cons_append, List.destutter'_cons_pos _ hac, List.destutter'_cons_pos _ hac]
      have hlast : (as.destutter' R c).getLast? = some latest := by
        rwa [List.getLast?_cons_of_ne_nil (List.destutter'_ne_nil as R)] at h
      rw [ih hlast]
      split <;> rfl
    · -- `c` is dropped, and nothing else is compared with it.
      rw [List.destutter'_cons_neg as hac] at h
      rw [List.cons_append, List.destutter'_cons_neg _ hac, List.destutter'_cons_neg _ hac]
      exact ih h

/-- The steps of a list: its pairs of neighbours. -/
def stepsOf (as : List α) : List (α × α) :=
  as.zip as.tail

/-- A list makes one more step by an element at its end, unless it was empty. -/
theorem stepsOf_append_singleton (as : List α) (b : α) :
    stepsOf (as ++ [b]) = stepsOf as ++ (as.getLast?.map fun latest => (latest, b)).toList := by
  induction as with
  | nil => rfl
  | cons a as ih =>
    cases as with
    | nil => rfl
    | cons c as =>
      simp only [stepsOf, List.cons_append, List.tail_cons, List.zip_cons_cons] at ih ⊢
      -- The last element is the same without `a` in front.
      rw [ih, List.getLast?_cons_cons]

/-- The steps of a list are the pairs of elements at places one after the other. -/
theorem mem_stepsOf {as : List α} {a b : α} :
    (a, b) ∈ stepsOf as ↔ ∃ i, as[i]? = some a ∧ as[i + 1]? = some b := by
  rw [stepsOf, List.mem_iff_getElem?]
  refine exists_congr fun i => ?_
  rw [List.getElem?_zip_eq_some, List.getElem?_tail]

/-- Both ends of a step are in the list. -/
theorem mem_of_mem_stepsOf {as : List α} {step : α × α} (h : step ∈ stepsOf as) :
    step.1 ∈ as ∧ step.2 ∈ as := by
  obtain ⟨hfront, hback⟩ := List.of_mem_zip h
  exact ⟨hfront, List.mem_of_mem_tail hback⟩

/-- The steps of the images are the images of the steps. -/
theorem stepsOf_map {β : Type} (f : α → β) (as : List α) :
    stepsOf (as.map f) = (stepsOf as).map (Prod.map f f) := by
  rw [stepsOf, stepsOf, ← List.map_tail, List.zip_map]

/-- No element is more often the front of a step than it is in the list. -/
theorem map_fst_stepsOf_sublist (as : List α) : ((stepsOf as).map (·.1)).Sublist as := by
  induction as with
  | nil => exact .slnil
  | cons a as ih =>
    cases as with
    | nil => exact List.nil_sublist _
    | cons b as => exact ih.cons_cons a

/-- Every element but the first is the end of one step. -/
theorem map_snd_stepsOf (as : List α) : (stepsOf as).map (·.2) = as.tail :=
  List.map_snd_zip (by rw [List.length_tail]; exact Nat.sub_le _ _)

/-- What relates neighbours relates the ends of every step. -/
theorem rel_of_mem_stepsOf {S : α → α → Prop} {as : List α} (h : as.IsChain S) {step : α × α}
    (hstep : step ∈ stepsOf as) : S step.1 step.2 := by
  induction as with
  | nil => exact absurd hstep (by simp [stepsOf])
  | cons a as ih =>
    cases as with
    | nil => exact absurd hstep (by simp [stepsOf])
    | cons b as =>
      rw [List.isChain_cons_cons] at h
      -- The first step is from `a` to `b`, and the others are behind `b`.
      rcases List.mem_cons.1 hstep with rfl | hstep
      · exact h.1
      · exact ih h.2 hstep

/-- Images are different all over a list if they are different on each part of it, and the parts
share no image. -/
theorem nodup_map_of_parts {β κ : Type} [DecidableEq κ] (part : α → κ) {f : α → β} {as : List α}
    (hparts : ∀ k, ((as.filter (part · = k)).map f).Nodup)
    (happart : ∀ a ∈ as, ∀ b ∈ as, f a = f b → part a = part b) : (as.map f).Nodup := by
  induction as with
  | nil => exact .nil
  | cons a as ih =>
    rw [List.map_cons, List.nodup_cons]
    refine ⟨fun hmem => ?_, ih (fun k => ?_) ?_⟩
    · -- Another element with the image of the first would be of the same part.
      obtain ⟨b, hb, hf⟩ := List.mem_map.1 hmem
      have hpart : part b = part a := happart b (List.mem_cons_of_mem _ hb) a List.mem_cons_self hf
      have hown := hparts (part a)
      rw [List.filter_cons_of_pos (by simp), List.map_cons, List.nodup_cons] at hown
      refine hown.1 (List.mem_map.2 ⟨b, ?_, hf⟩)
      exact List.mem_filter.2 ⟨hb, by simp [hpart]⟩
    · exact (hparts k).sublist (((List.sublist_cons_self a as).filter _).map f)
    · exact fun b hb c hc => happart b (List.mem_cons_of_mem _ hb) c (List.mem_cons_of_mem _ hc)

end Lists

/-! ### What is retained -/

section Retained

variable {α β : Type} (written : α → Bool) (value : α → Option String)

/-- What there is to retain: the first element, whatever it is, and the later ones that
were written. -/
def candidates : List α → List α
  | [] => []
  | first :: later => first :: later.filter written

/-- What is retained of some elements: the first, and of the later ones that were written those with
a value that differs from the value of the one retained before. -/
def retained (as : List α) : List α :=
  (candidates written as).destutter fun a b => value a ≠ value b

/-- What is retained once one more element has come. -/
def extended (kept : List α) (a : α) : List α :=
  match kept.getLast? with
  | none => [a]
  | some latest => if written a = true ∧ value latest ≠ value a then kept ++ [a] else kept

variable {written value}

/-- Something is retained if there was anything. -/
theorem retained_eq_nil {as : List α} : retained written value as = [] ↔ as = [] := by
  rw [retained, List.destutter_eq_nil]
  cases as <;> simp [candidates]

/-- What is retained depends on the latest that was retained, and on nothing before. -/
theorem retained_append_singleton (as : List α) (a : α) :
    retained written value (as ++ [a]) = extended written value (retained written value as) a := by
  cases as with
  | nil => rfl
  | cons first later =>
    -- There is an element kept last, since the first one is kept in any case.
    obtain ⟨latest, hlatest⟩ :
        ∃ latest, (retained written value (first :: later)).getLast? = some latest :=
      Option.ne_none_iff_exists'.1 fun hnone =>
        absurd (List.getLast?_eq_none_iff.1 hnone) (by simp [retained_eq_nil])
    rw [extended, hlatest]
    by_cases hwritten : written a = true
    · -- A candidate: it is kept as its value compares with the one kept last.
      have hcandidates : candidates written (first :: later ++ [a]) =
          first :: (later.filter written ++ [a]) := by
        simp [candidates, hwritten]
      rw [retained, hcandidates, List.destutter_cons', destutter'_append_singleton a hlatest]
      simp only [hwritten, true_and]
      rfl
    · -- No candidate: its value is not looked at.
      have hcandidates : candidates written (first :: later ++ [a]) =
          candidates written (first :: later) := by
        simp [candidates, hwritten]
      simp only [retained, hcandidates, hwritten, Bool.false_eq_true, false_and, if_false]

/-- What is retained is among what there was, in the order in which it was there. -/
theorem retained_sublist (as : List α) : (retained written value as).Sublist as := by
  refine (List.destutter_sublist _ _).trans ?_
  -- Of the candidates the first one stays, and the others are filtered.
  cases as with
  | nil => exact .slnil
  | cons first later => exact List.filter_sublist.cons_cons first

/-- Neighbours in what is retained have different values. -/
theorem isChain_retained (as : List α) :
    (retained written value as).IsChain fun a b => value a ≠ value b :=
  List.isChain_destutter _ _

/-- What is retained is not changed by another reading of the elements that says the same. -/
theorem map_retained {written' : β → Bool} {value' : β → Option String} (f : α → β) {as : List α}
    (hwritten : ∀ a ∈ as, written' (f a) = written a) (hvalue : ∀ a ∈ as, value' (f a) = value a) :
    (retained written value as).map f = retained written' value' (as.map f) := by
  have hcandidates : candidates written' (as.map f) = (candidates written as).map f := by
    cases as with
    | nil => rfl
    | cons first later =>
      simp only [candidates, List.map_cons, List.filter_map]
      congr 2
      exact List.filter_congr fun a ha => hwritten a (List.mem_cons_of_mem _ ha)
  -- Values are compared of candidates only, and these are among the elements.
  have hmem : ∀ a ∈ candidates written as, a ∈ as := by
    cases as with
    | nil => exact fun a ha => ha
    | cons first later => exact fun a ha => (List.filter_sublist.cons_cons first).subset ha
  rw [retained, retained, hcandidates]
  refine List.map_destutter fun a ha b hb => ?_
  rw [hvalue a (hmem a ha), hvalue b (hmem b hb)]

end Retained

end Lineage
