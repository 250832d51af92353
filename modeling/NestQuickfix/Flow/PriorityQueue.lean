import Mathlib.Data.List.Sort
import Mathlib.Data.Rat.Defs
import Mathlib.Algebra.Order.Ring.Rat

/-!
# The priority queue

`PriorityQueue` appends an item and sorts the whole list by descending
priority. The sort is stable, so items of equal priority leave in the order they
came in. The sorted list is a field of the structure. The priorities are taken from any
linear order, by default the rational numbers.
-/

namespace NestQuickfix

variable {α : Type*} {P : Type} [LinearOrder P]

/-- An item with its priority. -/
structure PriorityItem (α : Type*) (P : Type := ℚ) where
  item : α
  priority : P

/-- The order of the comparator `b.priority - a.priority`. -/
def PriorityItem.Before (a b : PriorityItem α P) : Prop := b.priority ≤ a.priority

instance : DecidableRel (@PriorityItem.Before α P _) := fun a b =>
  inferInstanceAs (Decidable (b.priority ≤ a.priority))

instance : Std.Total (@PriorityItem.Before α P _) := ⟨fun a b => le_total b.priority a.priority⟩

instance : IsTrans (PriorityItem α P) PriorityItem.Before :=
  ⟨fun _ _ _ hab hbc => le_trans hbc hab⟩

/-- Items in the order in which they will be taken. -/
structure PriorityQueue (α : Type*) (P : Type := ℚ) [LinearOrder P] where
  items : List (PriorityItem α P)
  sorted : items.Pairwise PriorityItem.Before

namespace PriorityQueue

/-- The queue without items. -/
def empty : PriorityQueue α P := ⟨[], List.Pairwise.nil⟩

instance : Inhabited (PriorityQueue α P) := ⟨empty⟩

/-- Append an item and sort by descending priority. -/
def enqueue (q : PriorityQueue α P) (item : α) (priority : P) : PriorityQueue α P :=
  ⟨List.insertionSort PriorityItem.Before (q.items ++ [⟨item, priority⟩]),
    List.pairwise_insertionSort _ _⟩

/-- Take the first item. -/
def dequeue : PriorityQueue α P → Option (α × PriorityQueue α P)
  | ⟨[], _⟩ => none
  | ⟨x :: xs, h⟩ => some (x.item, ⟨xs, h.of_cons⟩)

/-- Whether there is no item. -/
def isEmpty (q : PriorityQueue α P) : Bool := q.items.isEmpty

/-- The number of items. -/
def getSize (q : PriorityQueue α P) : ℕ := q.items.length

/-- The items without their priorities. -/
def contents (q : PriorityQueue α P) : List α := q.items.map PriorityItem.item

/-- An item that is put into the queue is added to the contents. -/
theorem contents_enqueue (q : PriorityQueue α P) (item : α) (priority : P) :
    (q.enqueue item priority).contents.Perm (item :: q.contents) := by
  have hsort := (List.perm_insertionSort PriorityItem.Before
    (q.items ++ [⟨item, priority⟩])).map PriorityItem.item
  rw [List.map_append, List.map_singleton] at hsort
  exact hsort.trans (List.perm_append_singleton _ _)

theorem items_of_dequeue {q q' : PriorityQueue α P} {item : α}
    (h : q.dequeue = some (item, q')) : ∃ x xs, q.items = x :: xs ∧ x.item = item ∧ q'.items = xs := by
  match q, h with
  | ⟨x :: xs, _⟩, h =>
    obtain ⟨rfl, rfl⟩ := Prod.mk.inj (Option.some.inj h)
    exact ⟨x, xs, rfl, rfl, rfl⟩

theorem contents_eq_of_dequeue {q q' : PriorityQueue α P} {item : α}
    (h : q.dequeue = some (item, q')) : q.contents = item :: q'.contents := by
  match q, h with
  | ⟨x :: xs, _⟩, h =>
    obtain ⟨rfl, rfl⟩ := Prod.mk.inj (Option.some.inj h)
    rfl

theorem dequeue_eq_none_iff {q : PriorityQueue α P} : q.dequeue = none ↔ q.contents = [] := by
  match q with
  | ⟨[], _⟩ => simp [dequeue, contents]
  | ⟨x :: xs, _⟩ => simp [dequeue, contents]

theorem isEmpty_iff {q : PriorityQueue α P} : q.isEmpty = true ↔ q.contents = [] := by
  simp [isEmpty, contents]

/-- Items of one priority leave in the order in which they were put in. -/
example : (((((empty : PriorityQueue Char).enqueue 'a' 1).enqueue 'b' 2).enqueue 'c' 1).enqueue 'd' 2).contents =
    ['b', 'd', 'a', 'c'] := by decide +kernel

end PriorityQueue

end NestQuickfix
