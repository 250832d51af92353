import Mathlib.Data.List.Nodup

/-!
# Insertion-ordered maps

A map that remembers the order in which its keys were first inserted, as the
`Map` objects of JavaScript do. Writing to a present key keeps its position,
and iteration follows the list of entries. The entries carry the proof that no
key is stored twice.
-/

namespace Lib

/-- An association list with pairwise distinct keys, in insertion order. -/
structure OrderedMap (κ ν : Type*) where
  /-- The key-value pairs in iteration order. -/
  entries : List (κ × ν)
  /-- No key is stored twice. -/
  nodup : (entries.map Prod.fst).Nodup

namespace OrderedMap

variable {κ ν : Type*} [DecidableEq κ]

instance [DecidableEq ν] : DecidableEq (OrderedMap κ ν) := fun m n =>
  decidable_of_iff (m.entries = n.entries) (by cases m; cases n; simp)

omit [DecidableEq κ] in
/-- A map is determined by its list of entries. -/
@[ext] theorem ext {m n : OrderedMap κ ν} (h : m.entries = n.entries) : m = n := by
  cases m
  cases n
  simpa using h

/-- The map without entries. -/
def empty : OrderedMap κ ν := ⟨[], by simp⟩

instance : Inhabited (OrderedMap κ ν) := ⟨empty⟩

/-- The keys in insertion order. -/
def keys (m : OrderedMap κ ν) : List κ := m.entries.map Prod.fst

/-- The values in insertion order of their keys. -/
def values (m : OrderedMap κ ν) : List ν := m.entries.map Prod.snd

/-- The number of entries. -/
def size (m : OrderedMap κ ν) : ℕ := m.entries.length

/-- The value stored under a key. -/
def get? (m : OrderedMap κ ν) (k : κ) : Option ν := m.entries.lookup k

/-- Whether a key is present. -/
def has (m : OrderedMap κ ν) (k : κ) : Bool := decide (k ∈ m.keys)

/-- Overwriting the value of one key in a list of entries keeps all positions. -/
def overwrite (k : κ) (v : ν) (entries : List (κ × ν)) : List (κ × ν) :=
  entries.map (fun e => if e.1 = k then (k, v) else e)

/-- Overwriting does not change the keys. -/
theorem overwrite_keys (k : κ) (v : ν) (entries : List (κ × ν)) :
    (overwrite k v entries).map Prod.fst = entries.map Prod.fst := by
  simp only [overwrite, List.map_map]
  apply List.map_congr_left
  intro e _
  by_cases h : e.1 = k <;> simp [h]

/-- Store a value. A present key keeps its position, a new one is appended. -/
def set (m : OrderedMap κ ν) (k : κ) (v : ν) : OrderedMap κ ν :=
  if h : k ∈ m.keys then
    ⟨overwrite k v m.entries, by rw [overwrite_keys]; exact m.nodup⟩
  else
    ⟨m.entries ++ [(k, v)], by
      have hk : k ∉ m.entries.map Prod.fst := h
      rw [List.map_append, List.nodup_append]
      refine ⟨m.nodup, by simp, ?_⟩
      rintro a ha b hb rfl
      exact hk (by simpa [List.mem_singleton.mp hb] using ha)⟩

/-- Remove a key. -/
def erase (m : OrderedMap κ ν) (k : κ) : OrderedMap κ ν :=
  ⟨m.entries.filter (fun e => decide (e.1 ≠ k)),
    m.nodup.sublist (List.filter_sublist.map Prod.fst)⟩

omit [DecidableEq κ] in
/-- The keys of a map are pairwise distinct. -/
theorem keys_nodup (m : OrderedMap κ ν) : m.keys.Nodup := m.nodup

omit [DecidableEq κ] in
/-- A stored pair contributes its key. -/
theorem mem_keys_of_mem {m : OrderedMap κ ν} {k : κ} {v : ν} (h : (k, v) ∈ m.entries) :
    k ∈ m.keys :=
  List.mem_map.mpr ⟨(k, v), h, rfl⟩

@[simp] theorem get?_empty (k : κ) : (empty : OrderedMap κ ν).get? k = none := rfl

omit [DecidableEq κ] in
@[simp] theorem keys_empty : (empty : OrderedMap κ ν).keys = [] := rfl

omit [DecidableEq κ] in
@[simp] theorem entries_empty : (empty : OrderedMap κ ν).entries = [] := rfl

theorem lookup_eq_some_iff {entries : List (κ × ν)} (hnodup : (entries.map Prod.fst).Nodup)
    {k : κ} {v : ν} : entries.lookup k = some v ↔ (k, v) ∈ entries := by
  induction entries with
  | nil => simp
  | cons e es ih =>
    obtain ⟨a, b⟩ := e
    rw [List.map_cons, List.nodup_cons] at hnodup
    by_cases hk : k = a
    · subst hk
      have hfresh : (k, v) ∉ es := fun hmem => hnodup.1 (List.mem_map.mpr ⟨_, hmem, rfl⟩)
      simp [hfresh, eq_comm]
    · rw [List.lookup_cons, beq_false_of_ne hk]
      simp [hk, ih hnodup.2]

/-- A lookup succeeds exactly on the stored pairs. -/
theorem get?_eq_some_iff {m : OrderedMap κ ν} {k : κ} {v : ν} :
    m.get? k = some v ↔ (k, v) ∈ m.entries :=
  lookup_eq_some_iff m.nodup

/-- A lookup fails exactly on the absent keys. -/
theorem get?_eq_none_iff {m : OrderedMap κ ν} {k : κ} : m.get? k = none ↔ k ∉ m.keys := by
  constructor
  · intro hnone hmem
    obtain ⟨⟨a, v⟩, hav, rfl⟩ := List.mem_map.mp hmem
    have hsome := get?_eq_some_iff.mpr hav
    rw [hnone] at hsome
    cases hsome
  · intro habsent
    cases h : m.get? k with
    | none => rfl
    | some v => exact absurd (mem_keys_of_mem (get?_eq_some_iff.mp h)) habsent

/-- The stored values stand under some key. -/
theorem mem_values_iff {m : OrderedMap κ ν} {v : ν} : v ∈ m.values ↔ ∃ k, m.get? k = some v := by
  simp [values, get?_eq_some_iff]

/-- A key is present exactly when its lookup succeeds. -/
theorem has_iff {m : OrderedMap κ ν} {k : κ} : m.has k = true ↔ k ∈ m.keys := by
  simp [has]

theorem has_eq_isSome (m : OrderedMap κ ν) (k : κ) : m.has k = (m.get? k).isSome := by
  cases h : m.get? k with
  | none => simpa [has] using get?_eq_none_iff.mp h
  | some v => simpa [has] using mem_keys_of_mem (get?_eq_some_iff.mp h)

/-- The pairs stored after a write: the written one, and those under other keys. -/
theorem mem_entries_set {m : OrderedMap κ ν} {k : κ} {v : ν} {e : κ × ν} :
    e ∈ (m.set k v).entries ↔ e = (k, v) ∨ (e.1 ≠ k ∧ e ∈ m.entries) := by
  by_cases hk : k ∈ m.keys
  · rw [set, dif_pos hk]
    obtain ⟨⟨a, b⟩, hab, rfl⟩ := List.mem_map.mp hk
    simp only [overwrite, List.mem_map]
    constructor
    · rintro ⟨e', he', rfl⟩
      by_cases h : e'.1 = a <;> simp [h, he']
    · rintro (rfl | ⟨hne, he⟩)
      · exact ⟨(a, b), hab, by simp⟩
      · exact ⟨e, he, by simp [hne]⟩
  · rw [set, dif_neg hk]
    simp only [List.mem_append, List.mem_singleton]
    constructor
    · rintro (he | rfl)
      · refine Or.inr ⟨?_, he⟩
        rintro rfl
        exact hk (mem_keys_of_mem he)
      · exact Or.inl rfl
    · rintro (rfl | ⟨_, he⟩)
      · exact Or.inr rfl
      · exact Or.inl he

/-- The pairs that survive the removal of a key. -/
theorem mem_entries_erase {m : OrderedMap κ ν} {k : κ} {e : κ × ν} :
    e ∈ (m.erase k).entries ↔ e.1 ≠ k ∧ e ∈ m.entries := by
  simp [erase, and_comm]

/-- Removing an absent key changes nothing. -/
theorem erase_of_notMem {m : OrderedMap κ ν} {k : κ} (h : k ∉ m.keys) : m.erase k = m := by
  ext1
  refine List.filter_eq_self.mpr fun e he => decide_eq_true ?_
  rintro rfl
  exact h (mem_keys_of_mem he)

/-- Reading after a write. -/
theorem get?_set (m : OrderedMap κ ν) (k k' : κ) (v : ν) :
    (m.set k v).get? k' = if k' = k then some v else m.get? k' := by
  ext w
  rw [get?_eq_some_iff, mem_entries_set]
  by_cases hk : k' = k
  · subst hk
    simp [eq_comm]
  · simp [hk, get?_eq_some_iff]

@[simp] theorem get?_set_self (m : OrderedMap κ ν) (k : κ) (v : ν) :
    (m.set k v).get? k = some v := by
  simp [get?_set]

theorem get?_set_of_ne (m : OrderedMap κ ν) {k k' : κ} (v : ν) (h : k' ≠ k) :
    (m.set k v).get? k' = m.get? k' := by
  simp [get?_set, h]

/-- Reading after a removal. -/
theorem get?_erase (m : OrderedMap κ ν) (k k' : κ) :
    (m.erase k).get? k' = if k' = k then none else m.get? k' := by
  ext w
  rw [get?_eq_some_iff, mem_entries_erase]
  by_cases hk : k' = k
  · simp [hk]
  · simp [hk, get?_eq_some_iff]

/-- The keys after a write. -/
theorem keys_set (m : OrderedMap κ ν) (k : κ) (v : ν) :
    (m.set k v).keys = if k ∈ m.keys then m.keys else m.keys ++ [k] := by
  by_cases hk : k ∈ m.keys
  · rw [set, dif_pos hk, if_pos hk]
    exact overwrite_keys k v m.entries
  · rw [set, dif_neg hk, if_neg hk]
    simp [keys]

@[simp] theorem mem_keys_set {m : OrderedMap κ ν} {k k' : κ} {v : ν} :
    k' ∈ (m.set k v).keys ↔ k' = k ∨ k' ∈ m.keys := by
  rw [keys_set]
  by_cases hk : k ∈ m.keys
  · rw [if_pos hk]
    constructor
    · exact Or.inr
    · rintro (rfl | h)
      · exact hk
      · exact h
  · rw [if_neg hk]
    simp [or_comm]

/-- Writing a fresh key appends it. -/
theorem entries_set_of_notMem {m : OrderedMap κ ν} {k : κ} (v : ν) (h : k ∉ m.keys) :
    (m.set k v).entries = m.entries ++ [(k, v)] := by
  rw [set, dif_neg h]

omit [DecidableEq κ] in
/-- A map has as many entries as keys. -/
theorem size_eq_length_keys (m : OrderedMap κ ν) : m.size = m.keys.length :=
  (List.length_map _).symm

/-- Writing a present key keeps the number of entries. -/
theorem size_set_of_mem {m : OrderedMap κ ν} {k : κ} (v : ν) (h : k ∈ m.keys) :
    (m.set k v).size = m.size := by
  rw [size_eq_length_keys, size_eq_length_keys, keys_set, if_pos h]

/-- A write adds at most one entry. -/
theorem size_set_le (m : OrderedMap κ ν) (k : κ) (v : ν) : (m.set k v).size ≤ m.size + 1 := by
  rw [size_eq_length_keys, size_eq_length_keys, keys_set]
  split
  · omega
  · have hlength : (m.keys ++ [k]).length = m.keys.length + 1 := List.length_append
    omega

/-- A removal adds no entry. -/
theorem size_erase_le (m : OrderedMap κ ν) (k : κ) : (m.erase k).size ≤ m.size :=
  List.length_filter_le _ _

/-- Writing a list of pairs one after the other, as a constructor does. -/
def ofList (pairs : List (κ × ν)) : OrderedMap κ ν :=
  pairs.foldl (fun m e => m.set e.1 e.2) empty

/-- Writing fresh, pairwise distinct keys appends the pairs in order. -/
theorem foldl_set_entries (m : OrderedMap κ ν) {pairs : List (κ × ν)}
    (hnodup : (pairs.map Prod.fst).Nodup) (hfresh : ∀ k ∈ pairs.map Prod.fst, k ∉ m.keys) :
    (pairs.foldl (fun m e => m.set e.1 e.2) m).entries = m.entries ++ pairs := by
  induction pairs generalizing m with
  | nil => simp
  | cons e es ih =>
    rw [List.map_cons, List.nodup_cons] at hnodup
    have he : e.1 ∉ m.keys := hfresh e.1 (by simp)
    rw [List.foldl_cons, ih (m.set e.1 e.2) hnodup.2, entries_set_of_notMem e.2 he]
    · simp
    · intro k hk hmem
      rcases mem_keys_set.mp hmem with rfl | hold
      · exact hnodup.1 hk
      · exact hfresh k (by simp [hk]) hold

/-- A list of pairs with distinct keys is stored as it is. -/
theorem entries_ofList {pairs : List (κ × ν)} (hnodup : (pairs.map Prod.fst).Nodup) :
    (ofList pairs).entries = pairs := by
  simpa [ofList] using foldl_set_entries empty hnodup (by simp)

/-! ## The last value of a key -/

/-- The value that a list of pairs gives to a key last. -/
def lastValue (pairs : List (κ × ν)) (k : κ) : Option ν := pairs.reverse.lookup k

theorem lastValue_append (pairs later : List (κ × ν)) (k : κ) :
    lastValue (pairs ++ later) k = (lastValue later k).or (lastValue pairs k) := by
  rw [lastValue, List.reverse_append, List.lookup_append]
  rfl

theorem lastValue_singleton (e : κ × ν) (k : κ) :
    lastValue [e] k = if k = e.1 then some e.2 else none := by
  rw [lastValue, List.reverse_singleton, List.lookup_cons, List.lookup_nil]
  by_cases h : k = e.1
  · rw [if_pos h, beq_iff_eq.mpr h]
  · rw [if_neg h, beq_eq_false_iff_ne.mpr h]

theorem lastValue_eq_none_iff {pairs : List (κ × ν)} {k : κ} :
    lastValue pairs k = none ↔ k ∉ pairs.map Prod.fst := by
  rw [lastValue, List.lookup_eq_none_iff]
  simp only [List.mem_reverse, bne_iff_ne, List.mem_map, not_exists, not_and]
  exact forall₂_congr fun _ _ => ne_comm

/-- A pair gives the last value if no later one has its key. -/
theorem lastValue_append_cons {pairs later : List (κ × ν)} {e : κ × ν}
    (h : e.1 ∉ later.map Prod.fst) : lastValue (pairs ++ e :: later) e.1 = some e.2 := by
  rw [← List.singleton_append, lastValue_append, lastValue_append, lastValue_eq_none_iff.mpr h,
    lastValue_singleton, if_pos rfl]
  rfl

theorem exists_of_lastValue_eq_some {pairs : List (κ × ν)} {k : κ} {v : ν}
    (h : lastValue pairs k = some v) :
    ∃ earlier later, pairs = earlier ++ (k, v) :: later ∧ k ∉ later.map Prod.fst := by
  obtain ⟨later, earlier, hsplit, hne⟩ := List.lookup_eq_some_iff.mp h
  refine ⟨earlier.reverse, later.reverse, ?_, ?_⟩
  · rw [← List.reverse_reverse pairs, hsplit]
    simp
  · rw [List.mem_map]
    rintro ⟨e, he, rfl⟩
    simpa using hne e (List.mem_reverse.mp he)

theorem mem_of_lastValue_eq_some {pairs : List (κ × ν)} {k : κ} {v : ν}
    (h : lastValue pairs k = some v) : (k, v) ∈ pairs := by
  obtain ⟨earlier, later, rfl, _⟩ := exists_of_lastValue_eq_some h
  simp

/-- Writing pairs one after the other leaves each key with its last value. -/
theorem get?_ofList (pairs : List (κ × ν)) (k : κ) :
    (ofList pairs).get? k = lastValue pairs k := by
  have hall : ∀ (pairs : List (κ × ν)) (m : OrderedMap κ ν),
      (pairs.foldl (fun m e => m.set e.1 e.2) m).get? k = (lastValue pairs k).or (m.get? k) := by
    intro pairs
    induction pairs with
    | nil => exact fun _ => rfl
    | cons e pairs ih =>
      intro m
      rw [List.foldl_cons, ih, ← List.singleton_append, lastValue_append, lastValue_singleton,
        get?_set, Option.or_assoc]
      split <;> rfl
  rw [ofList, hall]
  exact Option.or_none

end OrderedMap

end Lib
