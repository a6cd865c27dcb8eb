/-!
# Catalogs

A catalog files values under texts. Its entries stand in strictly increasing order of their keys, so
a key occurs once, a later value replaces an earlier one, and two catalogs that file the same values
under the same keys are equal (`Catalog.ext_get?`). Texts are compared character by character, which
is also the order of their UTF-8 bytes.

Annotations of the graph and the counters of a session are catalogs; so are the agents and the
activities that a session knows by device.
-/

namespace Lineage

/-- A finite map from texts to values, kept in strictly increasing order of the keys. -/
structure Catalog (α : Type) where
  /-- The keys and their values, smallest key first. -/
  entries : List (String × α)
  /-- Keys increase strictly from entry to entry. -/
  increasing : entries.Pairwise (fun a b => a.1 < b.1)
deriving DecidableEq

namespace Catalog

variable {α : Type}

def empty : Catalog α := ⟨[], .nil⟩

instance : Inhabited (Catalog α) := ⟨empty⟩

/-- The value filed under a key. -/
def get? (catalog : Catalog α) (key : String) : Option α :=
  catalog.entries.lookup key

/-- Whether anything is filed under the key. -/
def contains (catalog : Catalog α) (key : String) : Bool :=
  (catalog.get? key).isSome

def size (catalog : Catalog α) : Nat :=
  catalog.entries.length

def keys (catalog : Catalog α) : List String :=
  catalog.entries.map (·.1)

/-- The entries with one more: put before the first larger key, or in place of an entry with
the same key. -/
def insertEntry (key : String) (value : α) : List (String × α) → List (String × α)
  | [] => [(key, value)]
  | (k, v) :: rest =>
    -- Entries with smaller keys are passed; the first that is not smaller decides.
    if key < k then (key, value) :: (k, v) :: rest
    else if key = k then (key, value) :: rest
    else (k, v) :: insertEntry key value rest

/-- Inserting brings in no key but its own. -/
theorem mem_insertEntry {key : String} {value : α} {entry : String × α}
    {entries : List (String × α)} (h : entry ∈ insertEntry key value entries) :
    entry = (key, value) ∨ entry ∈ entries := by
  induction entries with
  | nil => simpa [insertEntry] using h
  | cons head rest ih =>
    obtain ⟨k, v⟩ := head
    simp only [insertEntry] at h
    split at h
    · simpa using h
    · split at h
      · simp only [List.mem_cons] at h ⊢
        exact h.imp_right .inr
      · simp only [List.mem_cons] at h ⊢
        rcases h with h | h
        · exact .inr (.inl h)
        · exact (ih h).imp_right .inr

/-- Of two different keys the one that is not smaller is larger. -/
theorem lt_of_not_lt_of_ne {a b : String} (h : ¬ a < b) (hne : a ≠ b) : b < a := by
  apply Decidable.byContradiction
  intro hba
  exact hne (String.le_antisymm hba h)

/-- Insertion keeps the keys strictly increasing. -/
theorem increasing_insertEntry (key : String) (value : α) {entries : List (String × α)}
    (h : entries.Pairwise (fun a b => a.1 < b.1)) :
    (insertEntry key value entries).Pairwise (fun a b => a.1 < b.1) := by
  induction entries with
  | nil => simp [insertEntry]
  | cons head rest ih =>
    obtain ⟨k, v⟩ := head
    have hhead := (List.pairwise_cons.1 h).1
    have hrest := (List.pairwise_cons.1 h).2
    simp only [insertEntry]
    -- The new entry comes before the first one, takes its place, or goes on behind it.
    split
    next hlt =>
      refine List.pairwise_cons.2 ⟨fun entry hmem => ?_, h⟩
      rcases List.mem_cons.1 hmem with rfl | hmem
      · exact hlt
      · exact String.lt_trans hlt (hhead entry hmem)
    next hlt =>
      split
      next heq =>
        subst heq
        exact List.pairwise_cons.2 ⟨hhead, hrest⟩
      next hne =>
        refine List.pairwise_cons.2 ⟨fun entry hmem => ?_, ih hrest⟩
        rcases mem_insertEntry hmem with rfl | hmem
        · exact lt_of_not_lt_of_ne hlt hne
        · exact hhead entry hmem

/-- Files a value under a key; a value that was there before gives way. -/
def insert (catalog : Catalog α) (key : String) (value : α) : Catalog α :=
  ⟨insertEntry key value catalog.entries, increasing_insertEntry key value catalog.increasing⟩

/-- Files all pairs, one after the other. -/
def insertAll (catalog : Catalog α) (pairs : List (String × α)) : Catalog α :=
  pairs.foldl (fun c pair => c.insert pair.1 pair.2) catalog

/-- The catalog of some pairs; of two pairs with one key the later one stays. -/
def ofList (pairs : List (String × α)) : Catalog α :=
  empty.insertAll pairs

/-! ### Laws of look-up -/

/-- The first entry answers for its own key and leaves the others to the rest. -/
theorem lookup_cons_ite (key k : String) (v : α) (rest : List (String × α)) :
    ((k, v) :: rest).lookup key = if key = k then some v else rest.lookup key := by
  by_cases h : key = k
  · simp [h]
  · have hk : (key == k) = false := beq_false_of_ne h
    simp [List.lookup_cons, hk, h]

/-- Look-up after an insertion, at the level of entries. -/
theorem lookup_insertEntry (key key' : String) (value : α) (entries : List (String × α)) :
    (insertEntry key value entries).lookup key' =
      if key' = key then some value else entries.lookup key' := by
  induction entries with
  | nil => simp [insertEntry, lookup_cons_ite]
  | cons head rest ih =>
    obtain ⟨k, v⟩ := head
    simp only [insertEntry]
    split
    next => simp [lookup_cons_ite]
    next =>
      split
      next heq =>
        subst heq
        by_cases h : key' = key <;> simp [lookup_cons_ite, h]
      next hne =>
        by_cases h : key' = k
        · subst h
          have : key' ≠ key := fun e => hne e.symm
          simp [this]
        · simp [lookup_cons_ite, h, ih]

@[simp] theorem get?_empty (key : String) : (empty : Catalog α).get? key = none := rfl

/-- The last value filed under a key is found there, and no other key is touched. -/
@[simp] theorem get?_insert (catalog : Catalog α) (key key' : String) (value : α) :
    (catalog.insert key value).get? key' = if key' = key then some value else catalog.get? key' :=
  lookup_insertEntry key key' value catalog.entries

/-- Entries whose keys are all larger than a key do not answer for it. -/
theorem lookup_eq_none_of_lt {key : String} {entries : List (String × α)}
    (h : ∀ entry ∈ entries, key < entry.1) : entries.lookup key = none := by
  induction entries with
  | nil => rfl
  | cons head rest ih =>
    obtain ⟨k, v⟩ := head
    have hne : key ≠ k := fun e => String.lt_irrefl key (e ▸ h (k, v) (by simp))
    rw [lookup_cons_ite, if_neg hne]
    exact ih fun entry hmem => h entry (by simp [hmem])

/-- Increasing entries are determined by what they answer. -/
theorem entries_eq_of_lookup_eq {as bs : List (String × α)}
    (ha : as.Pairwise (fun a b => a.1 < b.1)) (hb : bs.Pairwise (fun a b => a.1 < b.1))
    (h : ∀ key, as.lookup key = bs.lookup key) : as = bs := by
  induction as generalizing bs with
  | nil =>
    cases bs with
    | nil => rfl
    | cons b bs =>
      have := h b.1
      rw [lookup_cons_ite] at this
      simp at this
  | cons a as ih =>
    cases bs with
    | nil =>
      have := h a.1
      rw [lookup_cons_ite] at this
      simp at this
    | cons b bs =>
      obtain ⟨ka, va⟩ := a
      obtain ⟨kb, vb⟩ := b
      have hka := (List.pairwise_cons.1 ha).1
      have hkb := (List.pairwise_cons.1 hb).1
      -- If the first keys differed, the smaller of them would have an answer on its own side only.
      have hkey : ka = kb := by
        apply Decidable.byContradiction
        intro hne
        by_cases hlt : ka < kb
        · have hnone : ((kb, vb) :: bs).lookup ka = none := by
            apply lookup_eq_none_of_lt
            intro entry hmem
            rcases List.mem_cons.1 hmem with rfl | hmem
            · exact hlt
            · exact String.lt_trans hlt (hkb entry hmem)
          have := h ka
          rw [hnone] at this
          simp at this
        · have hgt : kb < ka := lt_of_not_lt_of_ne hlt hne
          have hnone : ((ka, va) :: as).lookup kb = none := by
            apply lookup_eq_none_of_lt
            intro entry hmem
            rcases List.mem_cons.1 hmem with rfl | hmem
            · exact hgt
            · exact String.lt_trans hgt (hka entry hmem)
          have := h kb
          rw [hnone] at this
          simp at this
      subst hkey
      have hval : va = vb := by simpa [lookup_cons_ite] using h ka
      subst hval
      congr 1
      -- Without the common first entry both sides still answer alike: neither rest knows its key.
      apply ih (List.pairwise_cons.1 ha).2 (List.pairwise_cons.1 hb).2
      intro key
      by_cases hk : key = ka
      · subst hk
        rw [lookup_eq_none_of_lt hka, lookup_eq_none_of_lt hkb]
      · have := h key
        simpa only [lookup_cons_ite, if_neg hk] using this

/-- Two catalogs that answer alike are equal. -/
theorem ext_get? {a b : Catalog α} (h : ∀ key, a.get? key = b.get? key) : a = b := by
  obtain ⟨as, ha⟩ := a
  obtain ⟨bs, hb⟩ := b
  have : as = bs := entries_eq_of_lookup_eq ha hb h
  subst this
  rfl

/-! ### Several pairs -/

/-- Filing pairs with different keys answers for each of the pairs, and for other keys as before. -/
theorem get?_insertAll (catalog : Catalog α) {pairs : List (String × α)}
    (h : (pairs.map (·.1)).Nodup) (key : String) :
    (catalog.insertAll pairs).get? key = (pairs.lookup key).or (catalog.get? key) := by
  induction pairs generalizing catalog with
  | nil => simp [insertAll]
  | cons pair pairs ih =>
    -- The induction is on the pairs, from the first to the last: the catalog takes the first in.
    obtain ⟨k, v⟩ := pair
    rw [List.map_cons, List.nodup_cons] at h
    have hfold : catalog.insertAll ((k, v) :: pairs) = (catalog.insert k v).insertAll pairs := rfl
    rw [hfold, ih _ h.2, get?_insert, lookup_cons_ite]
    by_cases hk : key = k
    · -- The first pair is not replaced, since no later one has its key.
      subst hk
      have hnone : pairs.lookup key = none := by
        rw [List.lookup_eq_none_iff]
        intro pair hmem
        refine bne_iff_ne.2 fun hkey => h.1 ?_
        rw [hkey]
        exact List.mem_map.2 ⟨pair, hmem, rfl⟩
      simp [hnone]
    · simp [hk]

/-- An entry with a key of its own is put in beside the others. -/
theorem insertEntry_perm {key : String} (value : α) {entries : List (String × α)}
    (h : key ∉ entries.map (·.1)) :
    (insertEntry key value entries).Perm ((key, value) :: entries) := by
  induction entries with
  | nil => exact .refl _
  | cons head rest ih =>
    obtain ⟨k, v⟩ := head
    rw [List.map_cons, List.mem_cons, not_or] at h
    simp only [insertEntry]
    split
    · exact .refl _
    · rw [if_neg h.1]
      exact ((ih h.2).cons (k, v)).trans (.swap ..)

/-- Pairs with keys of their own join the entries of a catalog, and none of them gives
way to another. -/
theorem entries_insertAll_perm (catalog : Catalog α) {pairs : List (String × α)}
    (h : ((catalog.entries ++ pairs).map (·.1)).Nodup) :
    (catalog.insertAll pairs).entries.Perm (catalog.entries ++ pairs) := by
  induction pairs generalizing catalog with
  | nil => exact .of_eq (List.append_nil _).symm
  | cons pair pairs ih =>
    have hnew : pair.1 ∉ catalog.entries.map (·.1) := by
      intro hmem
      rw [List.map_append, List.nodup_append] at h
      exact h.2.2 _ hmem _ List.mem_cons_self rfl
    have hfirst : (catalog.insert pair.1 pair.2).entries.Perm (pair :: catalog.entries) :=
      insertEntry_perm pair.2 hnew
    -- With the first pair among them, the entries have the same keys as before, so the others go on
    -- in the same way.
    have hall : ((catalog.insert pair.1 pair.2).entries ++ pairs).Perm
        (catalog.entries ++ pair :: pairs) :=
      (hfirst.append_right pairs).trans List.perm_middle.symm
    exact (ih _ ((hall.map _).nodup_iff.2 h)).trans hall

/-- No key occurs twice. -/
theorem nodup_keys (catalog : Catalog α) : (catalog.entries.map (·.1)).Nodup := by
  refine List.pairwise_map.2 (catalog.increasing.imp ?_)
  intro a b hlt heq
  rw [heq] at hlt
  exact String.lt_irrefl _ hlt

/-- A catalog is that of its own entries. -/
theorem ofList_entries (catalog : Catalog α) : ofList catalog.entries = catalog := by
  refine ext_get? fun key => ?_
  rw [ofList, get?_insertAll empty catalog.nodup_keys, get?_empty, Option.or_none]
  rfl

/-! ### Counters -/

/-- The count filed under a key, nothing filed being a count of zero. -/
def count (counters : Catalog Nat) (key : String) : Nat :=
  (counters.get? key).getD 0

/-- Counts one more under the key. -/
def increment (counters : Catalog Nat) (key : String) : Catalog Nat :=
  counters.insert key (counters.count key + 1)

def total (counters : Catalog Nat) : Nat :=
  (counters.entries.map (·.2)).foldr (· + ·) 0

/-- An increment adds one under its own key. -/
@[simp] theorem count_increment (counters : Catalog Nat) (key key' : String) :
    (counters.increment key).count key' = counters.count key' + if key' = key then 1 else 0 := by
  by_cases h : key' = key
  · subst h
    simp [count, increment]
  · simp [count, increment, h]

/-- It does not matter in which order things are counted. -/
theorem increment_comm (counters : Catalog Nat) (a b : String) :
    (counters.increment a).increment b = (counters.increment b).increment a := by
  by_cases hab : a = b
  · rw [hab]
  · refine ext_get? fun key => ?_
    have hcount : (counters.increment a).count b = counters.count b := by simp [Ne.symm hab]
    have hcount' : (counters.increment b).count a = counters.count a := by simp [hab]
    rw [increment, hcount, get?_insert, increment.eq_1 (counters.increment b), hcount', get?_insert]
    simp only [increment, get?_insert]
    -- At most one of the two keys is looked up.
    by_cases ha : key = a
    · subst ha
      simp [hab]
    · simp [ha]

/-- A count that is filed adds to the total, and the count that gives way to it no longer does. -/
theorem total_insertEntry (key : String) (n : Nat) {entries : List (String × Nat)}
    (h : entries.Pairwise (fun a b => a.1 < b.1)) :
    ((insertEntry key n entries).map (·.2)).foldr (· + ·) 0 + (entries.lookup key).getD 0 =
      (entries.map (·.2)).foldr (· + ·) 0 + n := by
  induction entries with
  | nil => simp [insertEntry]
  | cons head rest ih =>
    obtain ⟨k, v⟩ := head
    have hhead := (List.pairwise_cons.1 h).1
    have hrest := ih (List.pairwise_cons.1 h).2
    simp only [insertEntry, lookup_cons_ite]
    split
    next hlt =>
      -- The key comes before all others, so nothing was filed under it.
      have hne : key ≠ k := fun e => String.lt_irrefl key (e ▸ hlt)
      have hnone : rest.lookup key = none :=
        lookup_eq_none_of_lt fun entry hmem => String.lt_trans hlt (hhead entry hmem)
      simp only [if_neg hne, hnone, List.map_cons, List.foldr_cons, Option.getD_none]
      omega
    · split
      · simp only [List.map_cons, List.foldr_cons, Option.getD_some]
        omega
      · simp only [List.map_cons, List.foldr_cons]
        omega

/-- An increment adds one to the total. -/
@[simp] theorem total_increment (counters : Catalog Nat) (key : String) :
    (counters.increment key).total = counters.total + 1 := by
  have h : (counters.increment key).total + counters.count key = counters.total +
      (counters.count key + 1) :=
    total_insertEntry key (counters.count key + 1) counters.increasing
  omega

/-- A count is a part of the total. -/
theorem count_le_total (counters : Catalog Nat) (key : String) :
    counters.count key ≤ counters.total := by
  -- Were a zero filed in its place, the total would be less by the count.
  have h : (counters.insert key 0).total + counters.count key = counters.total + 0 :=
    total_insertEntry key 0 counters.increasing
  omega

end Catalog

/-- Annotations of a vertex or an edge: texts filed under texts. -/
abbrev Annotations := Catalog String

end Lineage
