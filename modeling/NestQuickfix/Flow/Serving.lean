import Mathlib.Data.List.Induction
import Mathlib.Data.List.ReduceOption
import NestQuickfix.Flow.PriorityQueue
import NestQuickfix.Lib.StableSort

/-!
# The order in which a priority queue serves

What the queue is for, stated without sorting: the waiting items stand in the order of their
arrival, and the one that is served is the first of those with the highest priority. The
sorted list of the queue is this list of waiting items in stable order.
-/

namespace NestQuickfix

open Lib

variable {α : Type*} {P : Type}

/-- A call of a queue. -/
inductive QueueCall (α : Type*) (P : Type) where
  | enqueue (item : α) (priority : P)
  | dequeue

/-- The items that calls enqueue, in order. -/
def arrivals : List (QueueCall α P) → List (PriorityItem α P)
  | [] => []
  | .enqueue item priority :: calls => ⟨item, priority⟩ :: arrivals calls
  | .dequeue :: calls => arrivals calls

theorem arrivals_append (calls calls' : List (QueueCall α P)) :
    arrivals (calls ++ calls') = arrivals calls ++ arrivals calls' := by
  induction calls with
  | nil => rfl
  | cons call calls ih => cases call <;> simp [arrivals, ih]

variable [LinearOrder P]

/-- After the calls these items wait, in the order of their arrival, and the dequeue calls have
served these items. Each one served is the first of those with the highest priority. -/
inductive Serves : List (QueueCall α P) → List (PriorityItem α P) →
    List (Option (PriorityItem α P)) → Prop
  | start : Serves [] [] []
  | enqueue {calls waiting served} (item : α) (priority : P) : Serves calls waiting served →
      Serves (calls ++ [.enqueue item priority]) (waiting ++ [⟨item, priority⟩]) served
  | empty {calls served} : Serves calls [] served →
      Serves (calls ++ [.dequeue]) [] (served ++ [none])
  | dequeue {calls earlier x later served} : Serves calls (earlier ++ x :: later) served →
      (∀ y ∈ earlier, y.priority < x.priority) → (∀ y ∈ later, y.priority ≤ x.priority) →
      Serves (calls ++ [.dequeue]) (earlier ++ later) (served ++ [some x])

/-- Every item that was enqueued waits or was served once. -/
theorem Serves.perm {calls : List (QueueCall α P)} {waiting : List (PriorityItem α P)}
    {served : List (Option (PriorityItem α P))} (h : Serves calls waiting served) :
    (arrivals calls).Perm (served.reduceOption ++ waiting) := by
  induction h with
  | start => exact List.Perm.refl _
  | enqueue item priority _ ih =>
    rw [arrivals_append, ← List.append_assoc]
    exact ih.append_right _
  | empty _ ih => simpa [arrivals_append, arrivals, List.reduceOption_append] using ih
  | dequeue _ _ _ ih =>
    rw [arrivals_append, List.reduceOption_append]
    simp only [arrivals, List.append_nil, List.append_assoc]
    refine ih.trans (List.Perm.append_left _ ?_)
    exact List.perm_middle

namespace PriorityQueue

/-- One call: the queue after it, and the results of all dequeue calls. -/
def call (s : PriorityQueue α P × List (Option α)) : QueueCall α P →
    PriorityQueue α P × List (Option α)
  | .enqueue item priority => (s.1.enqueue item priority, s.2)
  | .dequeue =>
    match s.1.dequeue with
    | none => (s.1, s.2 ++ [none])
    | some (item, queue) => (queue, s.2 ++ [some item])

/-- Calls on a new queue, one after the other. -/
def run (calls : List (QueueCall α P)) : PriorityQueue α P × List (Option α) :=
  calls.foldl call (empty, [])

theorem run_concat (calls : List (QueueCall α P)) (c : QueueCall α P) :
    run (calls ++ [c]) = call (run calls) c := by
  rw [run, List.foldl_append]
  rfl

/-- The queue has the waiting items in stable order. -/
structure Represents (s : PriorityQueue α P × List (Option α)) (waiting : List (PriorityItem α P))
    (served : List (Option (PriorityItem α P))) : Prop where
  items : s.1.items = List.insertionSort PriorityItem.Before waiting
  results : s.2 = served.map (Option.map PriorityItem.item)

/-- Every call keeps the representation. -/
theorem Represents.call {calls : List (QueueCall α P)} {s : PriorityQueue α P × List (Option α)}
    {waiting : List (PriorityItem α P)} {served : List (Option (PriorityItem α P))}
    (h : Represents s waiting served) (hserves : Serves calls waiting served)
    (c : QueueCall α P) : ∃ waiting' served', Serves (calls ++ [c]) waiting' served' ∧
      Represents (PriorityQueue.call s c) waiting' served' := by
  cases c with
  | enqueue item priority =>
    refine ⟨_, _, hserves.enqueue item priority, ⟨?_, h.results⟩⟩
    change List.insertionSort PriorityItem.Before (s.1.items ++ [⟨item, priority⟩]) = _
    rw [h.items, insertionSort_insertionSort_concat]
  | dequeue =>
    cases hdequeue : s.1.dequeue with
    | none =>
      have hitems : s.1.items = [] := by
        have hcontents := dequeue_eq_none_iff.mp hdequeue
        rwa [contents, List.map_eq_nil_iff] at hcontents
      obtain rfl : waiting = [] := by
        rw [← List.length_eq_zero_iff, ← List.length_insertionSort PriorityItem.Before waiting,
          ← h.items, hitems, List.length_nil]
      refine ⟨_, _, hserves.empty, ?_, ?_⟩
      · rw [PriorityQueue.call, hdequeue]
        exact h.items
      · rw [PriorityQueue.call, hdequeue, List.map_append, ← h.results]
        rfl
    | some result =>
      obtain ⟨item, queue⟩ := result
      obtain ⟨x, xs, hitems, rfl, rfl⟩ := items_of_dequeue hdequeue
      obtain ⟨earlier, later, rfl, hearlier, hlater, hrest⟩ :=
        exists_of_insertionSort_eq_cons PriorityItem.Before (h.items.symm.trans hitems)
      refine ⟨_, _, hserves.dequeue (fun y hy => not_le.mp (hearlier y hy)) hlater, ?_, ?_⟩
      · rw [PriorityQueue.call, hdequeue]
        exact hrest
      · rw [PriorityQueue.call, hdequeue, List.map_append, ← h.results]
        rfl

/-- The queue serves the waiting items by priority and arrival. -/
theorem exists_represents (calls : List (QueueCall α P)) : ∃ waiting served,
    Serves calls waiting served ∧ Represents (run calls) waiting served := by
  induction calls using List.reverseRecOn with
  | nil => exact ⟨[], [], .start, rfl, rfl⟩
  | append_singleton calls c ih =>
    obtain ⟨waiting, served, hserves, hrepr⟩ := ih
    rw [run_concat]
    exact hrepr.call hserves c

/-- For any calls on a new queue with priorities of any linear order: each dequeue on a queue that
is not empty returns the first waiting item of the highest priority, no enqueued item is
returned twice, and the size is the number of enqueued items without those returned. -/
theorem serves_run (calls : List (QueueCall α P)) : ∃ waiting served,
    Serves calls waiting served ∧ (run calls).2 = served.map (Option.map PriorityItem.item) ∧
      (arrivals calls).Perm (served.reduceOption ++ waiting) ∧
      (run calls).1.getSize + (run calls).2.reduceOption.length = (arrivals calls).length := by
  obtain ⟨waiting, served, hserves, hrepr⟩ := exists_represents calls
  have hperm := hserves.perm
  refine ⟨waiting, served, hserves, hrepr.results, hperm, ?_⟩
  have hsize : (run calls).1.getSize = waiting.length := by
    rw [getSize, hrepr.items, List.length_insertionSort]
  have hserved : (run calls).2.reduceOption.length = served.reduceOption.length := by
    rw [hrepr.results, List.reduceOption_map, List.length_map]
  rw [hsize, hserved, hperm.length_eq, List.length_append, Nat.add_comm]

example : (run (α := Char) (P := ℚ) [.enqueue 'a' 1, .enqueue 'b' 2, .dequeue, .enqueue 'c' 1,
    .dequeue, .dequeue, .dequeue]).2 = [some 'b', some 'a', some 'c', none] := by decide +kernel

end PriorityQueue

end NestQuickfix
