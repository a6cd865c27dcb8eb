/-!
# Lists with keys

A list whose elements are told apart by a key can be kept free of repetitions by putting elements in
with `putByKey`: an element takes the place of the one with its key, or goes to the end.
-/

namespace Lineage

variable {α κ : Type} [DecidableEq κ]

/-- Puts an element in place of the one with the same key, or at the end. -/
def putByKey (key : α → κ) (x : α) : List α → List α
  | [] => [x]
  | y :: ys => if key y = key x then x :: ys else y :: putByKey key x ys

/-- Putting in an element adds its key, unless it was there. -/
theorem map_putByKey (key : α → κ) (x : α) (xs : List α) :
    (putByKey key x xs).map key = if key x ∈ xs.map key then xs.map key
    else xs.map key ++ [key x] := by
  induction xs with
  | nil => simp [putByKey]
  | cons y ys ih =>
    simp only [putByKey]
    -- Either the first element gives way, or the key is looked for among the others.
    by_cases h : key y = key x
    · simp [h]
    · have h' : ¬ key x = key y := fun e => h e.symm
      simp only [h, if_false, List.map_cons, ih, List.mem_cons, h', false_or]
      split <;> simp

/-- Putting in an element brings in no other one. -/
theorem mem_putByKey {key : α → κ} {x y : α} {xs : List α} (h : y ∈ putByKey key x xs) :
    y = x ∨ y ∈ xs := by
  induction xs with
  | nil => exact .inl (List.mem_singleton.1 h)
  | cons z zs ih =>
    simp only [putByKey] at h
    split at h
    · exact (List.mem_cons.1 h).imp_right (List.mem_cons_of_mem z)
    · rcases List.mem_cons.1 h with rfl | h
      · exact .inr List.mem_cons_self
      · exact (ih h).imp_right (List.mem_cons_of_mem z)

/-- Keys stay distinct. -/
theorem nodup_map_putByKey (key : α → κ) (x : α) {xs : List α} (h : (xs.map key).Nodup) :
    ((putByKey key x xs).map key).Nodup := by
  rw [map_putByKey]
  split
  · exact h
  next hx =>
    -- A new key goes to the end, behind keys that differ from it.
    rw [List.nodup_append]
    refine ⟨h, by simp, ?_⟩
    intro a ha b hb
    simp only [List.mem_singleton] at hb
    rintro rfl
    exact hx (hb ▸ ha)

/-- The element put in is found under its key, and other keys answer as before. -/
theorem find?_putByKey (key : α → κ) (x : α) (k : κ) (xs : List α) :
    (putByKey key x xs).find? (key · = k) = if key x = k then some x else xs.find? (key · = k) := by
  induction xs with
  | nil => by_cases h : key x = k <;> simp [putByKey, h]
  | cons y ys ih =>
    simp only [putByKey]
    by_cases hyx : key y = key x
    · by_cases hk : key x = k <;> simp [hyx, hk]
    · rw [if_neg hyx]
      by_cases hyk : key y = k
      · have : ¬ key x = k := fun e => hyx (hyk.trans e.symm)
        simp [hyk, this]
      · simp [hyk, ih]

/-- Putting in an element commutes with a change of elements that leaves their keys. -/
theorem map_putByKey_comm {β : Type} (key : α → κ) (key' : β → κ) {f : α → β}
    (hkey : ∀ y, key' (f y) = key y) (x : α) (xs : List α) :
    (putByKey key x xs).map f = putByKey key' (f x) (xs.map f) := by
  induction xs with
  | nil => rfl
  | cons y ys ih =>
    simp only [putByKey, List.map_cons, hkey]
    split
    · rfl
    · rw [List.map_cons, ih]

/-- An element with a key of its own goes to the end. -/
theorem putByKey_of_notMem (key : α → κ) {x : α} {xs : List α} (h : key x ∉ xs.map key) :
    putByKey key x xs = xs ++ [x] := by
  induction xs with
  | nil => rfl
  | cons y ys ih =>
    simp only [List.map_cons, List.mem_cons, not_or] at h
    simp only [putByKey, List.cons_append, ih h.2]
    exact if_neg fun e => h.1 e.symm

/-- An element is found under its key, if keys are distinct. -/
theorem find?_key_of_mem (key : α → κ) {x : α} {xs : List α} (h : (xs.map key).Nodup)
    (hx : x ∈ xs) : xs.find? (key · = key x) = some x := by
  induction xs with
  | nil => exact absurd hx (by simp)
  | cons y ys ih =>
    rw [List.map_cons, List.nodup_cons] at h
    rcases List.mem_cons.1 hx with rfl | hx
    · simp
    · -- The first element has a key of its own, so it does not answer.
      have hne : ¬ key y = key x := fun e => h.1 (e ▸ List.mem_map.2 ⟨x, hx, rfl⟩)
      simp [hne, ih h.2 hx]

end Lineage
