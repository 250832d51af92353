import Mathlib.Data.List.Nodup
import Mathlib.Data.List.ReduceOption

/-!
# Sets that are changed while a loop goes through them

A `Set` object of JavaScript keeps its elements in insertion order. The place of a deleted
element stays, empty. So `forEach` can count through the places although its callback changes
the set: it visits each element that is present at its turn. It has no bound of its own, since
a callback may go on adding elements.
-/

namespace Lib

/-- The places of a set object, whose elements are distinct. -/
structure SetData (α : Type*) where
  /-- The elements in insertion order, with an empty place for each deleted one. -/
  places : List (Option α)
  /-- No element is stored twice. -/
  nodup : places.reduceOption.Nodup

namespace SetData

variable {α σ : Type*}

/-- The set without elements. -/
def empty : SetData α := ⟨[], List.nodup_nil⟩

/-- The elements in insertion order, as `Array.from` lists them. -/
def elements (x : SetData α) : List α := x.places.reduceOption

/-- The number of elements. -/
def size (x : SetData α) : ℕ := x.elements.length

@[simp] theorem elements_empty : (empty : SetData α).elements = [] := rfl

theorem size_eq_zero_iff {x : SetData α} : x.size = 0 ↔ x.elements = [] :=
  List.length_eq_zero_iff

/-- `forEach` from place `i` on, for a number of turns at most. The callback may change the set,
which is read anew at every turn. -/
def forEach (read : σ → SetData α) (visit : σ → α → σ) : ℕ → ℕ → σ → Option σ
  | 0, _, _ => none
  | turns + 1, i, s =>
    match (read s).places[i]? with
    | none => some s
    | some none => forEach read visit turns (i + 1) s
    | some (some a) => forEach read visit turns (i + 1) (visit s a)

/-- More turns do not change what a loop does that has ended. -/
theorem forEach_mono {read : σ → SetData α} {visit : σ → α → σ} {turns turns' i : ℕ} {s s' : σ}
    (hturns : turns ≤ turns') (h : forEach read visit turns i s = some s') :
    forEach read visit turns' i s = some s' := by
  induction turns generalizing turns' i s with
  | zero => cases h
  | succ turns ih =>
    obtain ⟨more, rfl⟩ : ∃ more, turns' = more + 1 := ⟨turns' - 1, by omega⟩
    have hmore : turns ≤ more := Nat.le_of_succ_le_succ hturns
    unfold forEach at h ⊢
    cases hplace : (read s).places[i]? with
    | none =>
      rw [hplace] at h
      exact h
    | some place =>
      rw [hplace] at h
      cases place with
      | none => exact ih hmore h
      | some a => exact ih hmore h

/-! ## Changes -/

theorem reduceOption_append_some (places : List (Option α)) (a : α) :
    (places ++ [some a]).reduceOption = places.reduceOption ++ [a] := by
  rw [← List.concat_eq_append, List.reduceOption_concat_of_some, List.concat_eq_append]

variable [DecidableEq α]

/-- Whether an element is present. -/
def has (x : SetData α) (a : α) : Bool := decide (a ∈ x.elements)

/-- A new element takes a place at the end. -/
def add (x : SetData α) (a : α) : SetData α :=
  if h : a ∈ x.elements then x
  else ⟨x.places ++ [some a], by
    rw [reduceOption_append_some, ← List.concat_eq_append]
    exact (List.nodup_concat _ _).mpr ⟨h, x.nodup⟩⟩

/-- A place that is emptied if it holds the element. -/
def emptied (a : α) (place : Option α) : Option α := if place = some a then none else place

theorem reduceOption_map_emptied (a : α) (places : List (Option α)) :
    (places.map (emptied a)).reduceOption = places.reduceOption.filter fun b => b ≠ a := by
  induction places with
  | nil => rfl
  | cons place places ih =>
    cases place with
    | none => exact ih
    | some b =>
      rw [List.map_cons, List.reduceOption_cons_of_some]
      by_cases hb : b = a
      · rw [emptied, if_pos (congrArg some hb), List.reduceOption_cons_of_none, ih,
          List.filter_cons_of_neg (by simp [hb])]
      · rw [emptied, if_neg (by simp [hb]), List.reduceOption_cons_of_some, ih,
          List.filter_cons_of_pos (by simp [hb])]

/-- The place of the element is emptied. -/
def delete (x : SetData α) (a : α) : SetData α :=
  ⟨x.places.map (emptied a), by
    rw [reduceOption_map_emptied]
    exact x.nodup.filter _⟩

theorem elements_add (x : SetData α) (a : α) :
    (x.add a).elements = if a ∈ x.elements then x.elements else x.elements ++ [a] := by
  unfold add
  split
  · rfl
  · exact reduceOption_append_some x.places a

theorem elements_delete (x : SetData α) (a : α) :
    (x.delete a).elements = x.elements.filter fun b => b ≠ a :=
  reduceOption_map_emptied a x.places

/-! ## Callbacks that delete -/

/-- A deletion empties no later place. -/
theorem reduceOption_drop_delete {x : SetData α} {i : ℕ} {a : α}
    (ha : x.places[i]? = some (some a)) :
    ((x.delete a).places.drop (i + 1)).reduceOption = (x.places.drop (i + 1)).reduceOption := by
  obtain ⟨hi, hplace⟩ := List.getElem?_eq_some_iff.mp ha
  have hsplit : x.places = x.places.take i ++ some a :: x.places.drop (i + 1) := by
    rw [← hplace, ← List.drop_eq_getElem_cons hi, List.take_append_drop]
  have hfresh : a ∉ (x.places.drop (i + 1)).reduceOption := by
    have hnodup := x.nodup
    rw [hsplit, List.reduceOption_append, List.reduceOption_cons_of_some] at hnodup
    exact (List.nodup_cons.mp (List.nodup_append.mp hnodup).2.1).1
  unfold delete
  dsimp only
  rw [← List.map_drop, reduceOption_map_emptied]
  exact List.filter_eq_self.mpr fun b hb => decide_eq_true fun hba => hfresh (hba ▸ hb)

/-- A callback that deletes the element it is called with does not disturb the loop: it ends
after one turn for each place, and it has visited the elements of the start. -/
theorem forEach_eq_foldl {read : σ → SetData α} {visit : σ → α → σ} {P : σ → Prop}
    (hvisit : ∀ s a, P s → a ∈ (read s).elements →
      P (visit s a) ∧ read (visit s a) = (read s).delete a)
    {turns i : ℕ} {s : σ} (hs : P s) (hturns : (read s).places.length - i < turns) :
    forEach read visit turns i s =
      some (((read s).places.drop i).reduceOption.foldl visit s) := by
  induction turns generalizing i s with
  | zero => exact absurd hturns (Nat.not_lt_zero _)
  | succ turns ih =>
    unfold forEach
    cases hplace : (read s).places[i]? with
    | none =>
      rw [List.drop_eq_nil_of_le (List.getElem?_eq_none_iff.mp hplace)]
      rfl
    | some place =>
      obtain ⟨hi, rfl⟩ := List.getElem?_eq_some_iff.mp hplace
      rw [List.drop_eq_getElem_cons hi]
      cases hcase : (read s).places[i] with
      | none =>
        rw [List.reduceOption_cons_of_none]
        exact ih hs (by omega)
      | some a =>
        rw [hcase] at hplace
        have ha : a ∈ (read s).elements :=
          List.reduceOption_mem_iff.mpr (List.mem_of_getElem? hplace)
        obtain ⟨hnext, hread⟩ := hvisit s a hs ha
        have hlength : (read (visit s a)).places.length = (read s).places.length := by
          rw [hread]
          exact List.length_map _
        rw [List.reduceOption_cons_of_some, List.foldl_cons, ← reduceOption_drop_delete hplace,
          ← hread]
        exact ih hnext (by omega)

end SetData

end Lib
