import Mathlib.Data.List.Sort
import Mathlib.Data.List.TakeWhile

/-!
# Stable sorting

Insertion sort is stable. An element that is appended to a sorted list goes behind all elements
that may stand before it, and the head of a sorted list is the first of the unsorted list
among those that may stand before all others.
-/

namespace Lib

variable {α : Type*} (r : α → α → Prop) [DecidableRel r]

/-- Put an element behind the leading ones that may stand before it. -/
def insertBehind (x : α) (l : List α) : List α :=
  l.takeWhile (fun y => r y x) ++ x :: l.dropWhile fun y => r y x

theorem insertBehind_cons_of_rel {x y : α} (h : r y x) (l : List α) :
    insertBehind r x (y :: l) = y :: insertBehind r x l := by
  simp [insertBehind, h]

theorem insertBehind_cons_of_not_rel {x y : α} (h : ¬ r y x) (l : List α) :
    insertBehind r x (y :: l) = x :: y :: l := by
  simp [insertBehind, h]

section Trans

variable [IsTrans α r]

/-- In a sorted list nothing behind the new element may stand before it. -/
theorem not_rel_of_mem_dropWhile {x y : α} {l : List α} (hsorted : l.Pairwise r)
    (hy : y ∈ l.dropWhile fun y => r y x) : ¬ r y x := by
  induction l with
  | nil => cases hy
  | cons a l ih =>
    by_cases hax : r a x
    · exact ih hsorted.of_cons (by simpa [hax] using hy)
    · have hmem : y ∈ a :: l := by simpa [hax] using hy
      rcases List.mem_cons.mp hmem with rfl | hl
      · exact hax
      · exact fun hyx => hax (IsTrans.trans _ _ _ (List.rel_of_pairwise_cons hsorted hl) hyx)

/-- A relation between the elements of a list and the new one holds in the new list. -/
theorem pairwise_insertBehind {R : α → α → Prop} {x : α} {l : List α} (hsorted : l.Pairwise r)
    (h : l.Pairwise R) (hfront : ∀ y ∈ l, r y x → R y x) (hback : ∀ y ∈ l, ¬ r y x → R x y) :
    (insertBehind r x l).Pairwise R := by
  rw [← List.takeWhile_append_dropWhile (l := l) (p := fun y => r y x), List.pairwise_append] at h
  obtain ⟨htake, hdrop, hcross⟩ := h
  have hbehind : ∀ y ∈ l.dropWhile fun y => r y x, R x y := fun y hy =>
    hback y ((List.dropWhile_suffix _).subset hy) (not_rel_of_mem_dropWhile r hsorted hy)
  refine List.pairwise_append.mpr ⟨htake, List.pairwise_cons.mpr ⟨hbehind, hdrop⟩, ?_⟩
  intro y hy z hz
  rcases List.mem_cons.mp hz with rfl | hz
  · have hrel : r y z := by simpa using List.mem_takeWhile_imp hy
    exact hfront y ((List.takeWhile_prefix _).subset hy) hrel
  · exact hcross y hy z hz

end Trans

variable [Std.Total r] [IsTrans α r]

/-- Inserting an element in front of its equals and another one behind its equals commute. -/
theorem orderedInsert_insertBehind (a x : α) (l : List α) :
    List.orderedInsert r a (insertBehind r x l) = insertBehind r x (List.orderedInsert r a l) := by
  induction l with
  | nil =>
    by_cases hax : r a x
    · rw [List.orderedInsert_nil, insertBehind_cons_of_rel r hax]
      exact List.orderedInsert_cons_of_le r _ hax
    · rw [List.orderedInsert_nil, insertBehind_cons_of_not_rel r hax]
      exact List.orderedInsert_of_not_le r _ hax
  | cons b l ih =>
    by_cases hbx : r b x
    · rw [insertBehind_cons_of_rel r hbx]
      by_cases hab : r a b
      · have hax : r a x := IsTrans.trans _ _ _ hab hbx
        rw [List.orderedInsert_cons_of_le r _ hab, List.orderedInsert_cons_of_le r _ hab,
          insertBehind_cons_of_rel r hax, insertBehind_cons_of_rel r hbx]
      · rw [List.orderedInsert_of_not_le r _ hab, List.orderedInsert_of_not_le r _ hab, ih,
          insertBehind_cons_of_rel r hbx]
    · rw [insertBehind_cons_of_not_rel r hbx]
      by_cases hab : r a b
      · rw [List.orderedInsert_cons_of_le r _ hab]
        by_cases hax : r a x
        · rw [List.orderedInsert_cons_of_le r _ hax, insertBehind_cons_of_rel r hax,
            insertBehind_cons_of_not_rel r hbx]
        · rw [List.orderedInsert_of_not_le r _ hax, insertBehind_cons_of_not_rel r hax,
            List.orderedInsert_cons_of_le r _ hab]
      · have hba : r b a := (Std.Total.total a b).resolve_left hab
        have hax : ¬ r a x := fun hax => hbx (IsTrans.trans _ _ _ hba hax)
        rw [List.orderedInsert_of_not_le r _ hax, List.orderedInsert_of_not_le r _ hab,
          insertBehind_cons_of_not_rel r hbx]

/-- The last element of a list is sorted behind its equals. -/
theorem insertionSort_concat (l : List α) (x : α) :
    List.insertionSort r (l ++ [x]) = insertBehind r x (List.insertionSort r l) := by
  induction l with
  | nil => rfl
  | cons a l ih =>
    rw [List.cons_append, List.insertionSort_cons, ih, orderedInsert_insertBehind,
      ← List.insertionSort_cons]

/-- Sorting again after an element was appended gives what sorting everything at once gives. -/
theorem insertionSort_insertionSort_concat (l : List α) (x : α) :
    List.insertionSort r (List.insertionSort r l ++ [x]) = List.insertionSort r (l ++ [x]) := by
  rw [insertionSort_concat, insertionSort_concat,
    (List.pairwise_insertionSort r l).insertionSort_eq]

/-- The head of a sorted list: in the unsorted list nothing in front of it may stand before it,
and it may stand before everything behind it. The tail is the rest in sorted order. -/
theorem exists_of_insertionSort_eq_cons {l xs : List α} {x : α}
    (h : List.insertionSort r l = x :: xs) :
    ∃ earlier later, l = earlier ++ x :: later ∧ (∀ y ∈ earlier, ¬ r y x) ∧
      (∀ y ∈ later, r x y) ∧ xs = List.insertionSort r (earlier ++ later) := by
  induction l generalizing x xs with
  | nil => cases h
  | cons a l ih =>
    rw [List.insertionSort_cons] at h
    cases hsort : List.insertionSort r l with
    | nil =>
      rw [hsort, List.orderedInsert_nil] at h
      obtain ⟨rfl, rfl⟩ := List.cons.inj h
      obtain rfl : l = [] := by
        rw [← List.length_eq_zero_iff, ← List.length_insertionSort r l, hsort, List.length_nil]
      exact ⟨[], [], rfl, by simp, by simp, rfl⟩
    | cons b rest =>
      rw [hsort] at h
      by_cases hab : r a b
      · rw [List.orderedInsert_cons_of_le r _ hab] at h
        obtain ⟨rfl, rfl⟩ := List.cons.inj h
        refine ⟨[], l, rfl, by simp, fun y hy => ?_, by rw [List.nil_append, hsort]⟩
        have hsorted := List.pairwise_insertionSort r l
        rw [hsort] at hsorted
        have hmem : y ∈ b :: rest := by
          rw [← hsort, List.mem_insertionSort]
          exact hy
        rcases List.mem_cons.mp hmem with rfl | hrest
        · exact hab
        · exact IsTrans.trans _ _ _ hab (List.rel_of_pairwise_cons hsorted hrest)
      · rw [List.orderedInsert_of_not_le r _ hab] at h
        obtain ⟨rfl, rfl⟩ := List.cons.inj h
        obtain ⟨earlier, later, rfl, hearlier, hlater, hrest⟩ := ih hsort
        refine ⟨a :: earlier, later, rfl, ?_, hlater, by rw [hrest]; rfl⟩
        exact List.forall_mem_cons.mpr ⟨hab, hearlier⟩

end Lib
