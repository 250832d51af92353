import NestQuickfix.Flow.Delivery

/-!
# Batches under way

A timer sets the processing flag for its batch and takes none while the flag is set. `shutdown`
reads the flag and does not set it, so its batch keeps neither a timer nor another `shutdown`
from taking the next one.
-/

namespace NestQuickfix

open Lib

variable {α : Type*} [DecidableEq α]

namespace QueueState

/-- Who started the batches under way. -/
def callers (s : QueueState α) : List BatchCaller := s.inFlight.map Batch.caller

/-- Who takes messages from the queue in this step. -/
def taker (s : QueueState α) : QueueEvent α → Option BatchCaller
  | .tick => if s.paused || s.processing || s.queue.isEmpty then none else some .timer
  | .shutdown => if s.processing || s.queue.isEmpty then none else some .shutdown
  | .poll => if s.waiting = 0 || s.processing || s.queue.isEmpty then none else some .shutdown
  | _ => none

omit [DecidableEq α] in
/-- A batch of at least one message is taken from a queue that is not empty. -/
theorem takeBatch_eq_cons {size : ℕ} {q : PriorityQueue α} (hsize : 0 < size)
    (hq : q.isEmpty = false) : ∃ m ms q', takeBatch size q = (m :: ms, q') := by
  obtain ⟨size, rfl⟩ := Nat.exists_eq_add_one_of_ne_zero hsize.ne'
  cases hdequeue : q.dequeue with
  | none =>
    have hempty := PriorityQueue.isEmpty_iff.mpr (PriorityQueue.dequeue_eq_none_iff.mp hdequeue)
    rw [hempty] at hq
    cases hq
  | some r =>
    obtain ⟨m, q'⟩ := r
    exact ⟨m, _, _, by rw [takeBatch, hdequeue]⟩

omit [DecidableEq α] in
/-- Without room in a batch nothing is taken. -/
theorem takeBatch_of_size {size : ℕ} {q : PriorityQueue α} (hsize : ¬ 0 < size) :
    takeBatch size q = ([], q) := by
  obtain rfl : size = 0 := by omega
  rfl

omit [DecidableEq α] in
/-- Taking a batch leaves the items behind it. -/
theorem items_takeBatch (size : ℕ) (q : PriorityQueue α) :
    (takeBatch size q).2.items = q.items.drop size := by
  induction size generalizing q with
  | zero => rfl
  | succ size ih =>
    rw [takeBatch]
    cases hq : q.dequeue with
    | none =>
      have hempty := List.map_eq_nil_iff.mp (PriorityQueue.dequeue_eq_none_iff.mp hq)
      simp [hempty]
    | some r =>
      obtain ⟨m, q'⟩ := r
      obtain ⟨x, xs, hitems, _, hrest⟩ := PriorityQueue.items_of_dequeue hq
      rw [hitems, List.drop_succ_cons, ← hrest, ← ih q']

omit [DecidableEq α] in
theorem items_processBatch (s : QueueState α) (caller : BatchCaller) :
    (s.processBatch caller).queue.items = s.queue.items.drop s.maxBatchSize.toNat := by
  rw [← items_takeBatch]
  unfold processBatch
  split
  · next queue htake =>
    rw [htake]
    cases caller <;> rfl
  · next m batch queue htake => rw [htake]

/-- What a step does to the batches under way and to the processing flag. -/
inductive BatchChange (s s' : QueueState α) (e : QueueEvent α) : Prop
  | unchanged : s'.callers = s.callers → s'.processing = s.processing →
      (s.taker e = none ∨ ¬ 0 < s.maxBatchSize) → BatchChange s s' e
  | starts (caller : BatchCaller) : s.taker e = some caller → s.processing = false →
      0 < s.maxBatchSize → s'.callers = s.callers ++ [caller] →
      s'.processing = decide (caller = .timer) → BatchChange s s' e
  | ends (i : ℕ) (caller : BatchCaller) : s.taker e = none → s.callers[i]? = some caller →
      s'.callers = s.callers.eraseIdx i →
      s'.processing = (s.processing && decide (caller ≠ .timer)) → BatchChange s s' e

omit [DecidableEq α] in
theorem callers_finish (s : QueueState α) (caller : BatchCaller) :
    (s.finish caller).callers = s.callers ∧
      (s.finish caller).processing = (s.processing && decide (caller ≠ .timer)) := by
  cases caller
  · exact ⟨rfl, by simp [finish]⟩
  · exact ⟨rfl, by simp [finish]⟩

omit [DecidableEq α] in
/-- Taking a batch from a queue that is not empty starts it, if there is room for a message. -/
theorem callers_processBatch {s : QueueState α} (hqueue : s.queue.isEmpty = false)
    (caller : BatchCaller) :
    (0 < s.maxBatchSize ∧ (s.processBatch caller).callers = s.callers ++ [caller] ∧
        (s.processBatch caller).processing = s.processing) ∨
      (¬ 0 < s.maxBatchSize ∧ (s.processBatch caller).callers = s.callers ∧
        (s.processBatch caller).processing = (s.processing && decide (caller ≠ .timer))) := by
  by_cases hsize : 0 < s.maxBatchSize
  · have hpos : 0 < s.maxBatchSize.toNat := by omega
    obtain ⟨m, ms, q, htake⟩ := takeBatch_eq_cons hpos hqueue
    left
    rw [processBatch, htake]
    exact ⟨hsize, by simp [callers], rfl⟩
  · have hzero : ¬ 0 < s.maxBatchSize.toNat := by omega
    have htake : takeBatch s.maxBatchSize.toNat s.queue = ([], s.queue) := takeBatch_of_size hzero
    right
    rw [processBatch, htake]
    exact ⟨hsize, callers_finish _ caller⟩

omit [DecidableEq α] in
theorem callers_sendNext {s : QueueState α} {i : ℕ} {b : Batch α} (h : s.inFlight[i]? = some b) :
    ((s.sendNext i b).callers = s.callers ∧ (s.sendNext i b).processing = s.processing) ∨
      ((s.sendNext i b).callers = s.callers.eraseIdx i ∧
        (s.sendNext i b).processing = (s.processing && decide (b.caller ≠ .timer))) := by
  unfold sendNext
  cases b.later with
  | nil =>
    right
    have hfinish := callers_finish { s with
      sent := s.sent ++ [b.current], inFlight := s.inFlight.eraseIdx i } b.caller
    exact ⟨hfinish.1.trans (List.eraseIdx_map ..).symm, hfinish.2⟩
  | cons next later =>
    left
    refine ⟨?_, rfl⟩
    have hcaller : s.callers[i]? = some b.caller := by rw [callers, List.getElem?_map, h]; rfl
    obtain ⟨hi, hget⟩ := List.getElem?_eq_some_iff.mp hcaller
    change (s.inFlight.set i _).map Batch.caller = _
    rw [List.map_set]
    change s.callers.set i b.caller = s.callers
    rw [← hget, List.set_getElem_self]

theorem callers_handleSendError (listenerThrows : α → Bool) (ms : List α) (s : QueueState α) :
    (handleSendError listenerThrows ms s).callers = s.callers ∧
      (handleSendError listenerThrows ms s).processing = s.processing := by
  rw [handleSendError_eq]
  exact ⟨rfl, rfl⟩

omit [DecidableEq α] in
theorem batchChange_drain {s t : QueueState α} {e : QueueEvent α}
    (hprocessing : s.processing = false) (hcallers : t.callers = s.callers)
    (hflag : t.processing = s.processing) (hsize : t.maxBatchSize = s.maxBatchSize)
    (htaker : s.taker e = if t.queue.isEmpty then none else some .shutdown) :
    BatchChange s t.drain e := by
  unfold drain
  split
  · next hempty =>
    rw [hempty, if_pos rfl] at htaker
    exact .unchanged hcallers hflag (Or.inl htaker)
  · next hempty =>
    rw [if_neg hempty] at htaker
    rcases callers_processBatch (Bool.eq_false_iff.mpr hempty) .shutdown with
      ⟨hpos, hstart, hprocess⟩ | ⟨hpos, hsame, hprocess⟩
    · exact .starts .shutdown htaker hprocessing (hsize ▸ hpos) (by rw [hstart, hcallers])
        (by rw [hprocess, hflag, hprocessing]; rfl)
    · exact .unchanged (hsame.trans hcallers) (by rw [hprocess, hflag, hprocessing]; rfl)
        (Or.inr (hsize ▸ hpos))

/-- Every step changes the batches under way in one of three ways. -/
theorem batchChange_step {s s' : QueueState α} {e : QueueEvent α} (h : s.step e = some s') :
    BatchChange s s' e := by
  cases e with
  | enqueue m priority =>
    obtain rfl := Option.some.inj h
    exact .unchanged rfl rfl (Or.inl rfl)
  | tick =>
    obtain rfl := Option.some.inj h
    unfold tick
    split
    · next hskip => exact .unchanged rfl rfl (Or.inl (if_pos hskip))
    · next hskip =>
      have htaker : s.taker .tick = some .timer := if_neg hskip
      simp only [Bool.or_eq_true, not_or, Bool.not_eq_true] at hskip
      rcases callers_processBatch (s := { s with processing := true }) hskip.2 .timer with
        ⟨hpos, hstart, hprocess⟩ | ⟨hpos, hsame, hprocess⟩
      · exact .starts .timer htaker hskip.1.2 hpos hstart hprocess
      · exact .unchanged hsame (by rw [hprocess, hskip.1.2]; rfl) (Or.inr hpos)
  | settle i hasMsgType session listenerThrows =>
    obtain ⟨b, hb, ⟨_, rfl⟩ | ⟨_, _, rfl⟩⟩ := settle_cases h
    · rcases callers_sendNext hb with ⟨hcallers, hflag⟩ | ⟨hcallers, hflag⟩
      · exact .unchanged hcallers hflag (Or.inl rfl)
      · exact .ends i b.caller rfl (by rw [callers, List.getElem?_map, hb]; rfl) hcallers hflag
    · have herror := callers_handleSendError listenerThrows b.messages
        { s with inFlight := s.inFlight.eraseIdx i }
      have hfinish := callers_finish (handleSendError listenerThrows b.messages
        { s with inFlight := s.inFlight.eraseIdx i }) b.caller
      refine .ends i b.caller rfl (by rw [callers, List.getElem?_map, hb]; rfl) ?_ ?_
      · rw [hfinish.1, herror.1]
        exact (List.eraseIdx_map ..).symm
      · rw [hfinish.2, herror.2]
  | pause | resume =>
    obtain rfl := Option.some.inj h
    exact .unchanged rfl rfl (Or.inl rfl)
  | shutdown =>
    simp only [step] at h
    split at h
    · next hprocessing =>
      obtain rfl := Option.some.inj h
      exact .unchanged rfl rfl (Or.inl (if_pos (by rw [hprocessing, Bool.true_or])))
    · next hprocessing =>
      obtain rfl := Option.some.inj h
      have hflag := Bool.eq_false_iff.mpr hprocessing
      refine batchChange_drain hflag rfl rfl rfl ?_
      rw [taker, hflag, Bool.false_or]
  | poll =>
    simp only [step] at h
    split at h
    · cases h
    · next hwaiting =>
      split at h
      · next hprocessing =>
        obtain rfl := Option.some.inj h
        exact .unchanged rfl rfl (Or.inl (if_pos (by simp [hprocessing])))
      · next hprocessing =>
        obtain rfl := Option.some.inj h
        have hflag := Bool.eq_false_iff.mpr hprocessing
        refine batchChange_drain hflag rfl rfl rfl ?_
        simp only [taker, hflag, hwaiting, decide_false, Bool.false_or]

theorem maxBatchSize_handleSendError (listenerThrows : α → Bool) (ms : List α)
    (s : QueueState α) : (handleSendError listenerThrows ms s).maxBatchSize = s.maxBatchSize := by
  rw [handleSendError_eq]

omit [DecidableEq α] in
theorem maxBatchSize_processBatch (s : QueueState α) (caller : BatchCaller) :
    (s.processBatch caller).maxBatchSize = s.maxBatchSize := by
  unfold processBatch
  split
  · cases caller <;> rfl
  · rfl

/-- The maximal size of a batch never changes. -/
theorem maxBatchSize_step {s s' : QueueState α} {e : QueueEvent α} (h : s.step e = some s') :
    s'.maxBatchSize = s.maxBatchSize := by
  have hfinish : ∀ (t : QueueState α) (caller : BatchCaller),
      (t.finish caller).maxBatchSize = t.maxBatchSize := by
    intro t caller
    cases caller <;> rfl
  have hdrain : ∀ t : QueueState α, t.drain.maxBatchSize = t.maxBatchSize := by
    intro t
    unfold drain
    split
    · rfl
    · rw [maxBatchSize_processBatch]
  cases e with
  | tick =>
    obtain rfl := Option.some.inj h
    unfold tick
    split
    · rfl
    · rw [maxBatchSize_processBatch]
  | settle i hasMsgType session listenerThrows =>
    obtain ⟨b, _, ⟨_, rfl⟩ | ⟨_, _, rfl⟩⟩ := settle_cases h
    · unfold sendNext
      cases b.later with
      | nil => rw [hfinish]
      | cons next later => rfl
    · rw [hfinish, maxBatchSize_handleSendError]
  | enqueue | pause | resume =>
    obtain rfl := Option.some.inj h
    rfl
  | shutdown =>
    simp only [step] at h
    split at h <;> obtain rfl := Option.some.inj h
    · rfl
    · rw [hdrain]
  | poll =>
    simp only [step] at h
    split at h
    · cases h
    · split at h <;> obtain rfl := Option.some.inj h
      · rfl
      · rw [hdrain]

/-- A step that takes a batch can happen. -/
theorem exists_step_of_taker {s : QueueState α} {e : QueueEvent α} (h : s.taker e ≠ none) :
    ∃ s', s.step e = some s' := by
  cases e with
  | tick => exact ⟨_, rfl⟩
  | shutdown =>
    rw [step]
    split <;> exact ⟨_, rfl⟩
  | poll =>
    rw [step]
    split
    · next hwaiting => simp [taker, hwaiting] at h
    · split <;> exact ⟨_, rfl⟩
  | enqueue | settle | pause | resume => exact absurd rfl h

end QueueState

/-! ## Runs -/

open QueueState

/-- After the step at most one batch is under way. -/
def KeepsOneBatch (s : QueueState α) (e : QueueEvent α) : Prop :=
  ∀ s' ∈ s.step e, s'.inFlight.length ≤ 1

instance (s : QueueState α) (e : QueueEvent α) : Decidable (KeepsOneBatch s e) :=
  inferInstanceAs (Decidable (∀ s' ∈ s.step e, _))

/-- The condition: no batch is taken while one that `shutdown` took is under way. -/
def TakesAfterShutdown (s : QueueState α) (e : QueueEvent α) : Prop :=
  s.taker e ≠ none → .shutdown ∉ s.callers

instance (s : QueueState α) (e : QueueEvent α) : Decidable (TakesAfterShutdown s e) :=
  inferInstanceAs (Decidable (_ → _))

/-- At most one batch is under way, and the flag is set exactly for that of a timer. -/
structure OneBatch (s : QueueState α) : Prop where
  one : s.callers.length ≤ 1
  flag : s.processing = decide (.timer ∈ s.callers)
  size : s.callers ≠ [] → 0 < s.maxBatchSize

namespace OneBatch

variable {s s' : QueueState α} {e : QueueEvent α}

omit [DecidableEq α] in
/-- If no batch of `shutdown` is under way when one is taken, none is under way. -/
theorem callers_eq_nil (h : OneBatch s) (hprocessing : s.processing = false)
    (hshutdown : .shutdown ∉ s.callers) : s.callers = [] := by
  have htimer : BatchCaller.timer ∉ s.callers := by
    have hflag := h.flag
    rw [hprocessing] at hflag
    exact of_decide_eq_false hflag.symm
  refine List.eq_nil_iff_forall_not_mem.mpr fun caller => ?_
  cases caller <;> assumption

theorem step (h : OneBatch s) (hguard : TakesAfterShutdown s e) (hstep : s.step e = some s') :
    OneBatch s' := by
  have hmax := maxBatchSize_step hstep
  rcases batchChange_step hstep with ⟨hcallers, hflag, _⟩ | ⟨caller, htaker, hprocessing, hpos,
    hcallers, hflag⟩ | ⟨i, caller, _, hget, hcallers, hflag⟩
  · exact ⟨hcallers ▸ h.one, by rw [hflag, hcallers, h.flag], by rw [hcallers, hmax]; exact h.size⟩
  · have hnil := h.callers_eq_nil hprocessing (hguard (by simp [htaker]))
    rw [hnil, List.nil_append] at hcallers
    refine ⟨by simp [hcallers], ?_, fun _ => hmax ▸ hpos⟩
    rw [hflag, hcallers]
    cases caller <;> rfl
  · obtain ⟨hi, rfl⟩ := List.getElem?_eq_some_iff.mp hget
    obtain ⟨c, hc⟩ := List.length_eq_one_iff.mp (le_antisymm h.one (by omega))
    obtain rfl : i = 0 := by
      rw [hc, List.length_singleton] at hi
      omega
    have hnil : s'.callers = [] := by rw [hcallers, hc]; rfl
    refine ⟨by simp [hnil], ?_, fun hne => absurd hnil hne⟩
    rw [hflag, h.flag, hnil]
    simp only [hc]
    cases c <;> rfl

end OneBatch

theorem oneBatch_of_reached {s : QueueState α}
    (h : System.Reached (messageQueue α) TakesAfterShutdown s) : OneBatch s := by
  have hinv : System.Invariant (messageQueue α) TakesAfterShutdown OneBatch := by
    refine ⟨?_, fun s e s' hone hguard hstep => hone.step hguard hstep⟩
    rintro s ⟨config, retryCount, rfl⟩
    exact ⟨by simp [callers, newMessageQueue], rfl, fun hne => absurd rfl hne⟩
  exact hinv.of_reached h

/-- In a state with one batch at most, the step keeps it so exactly if it takes no batch while one
that `shutdown` took is under way. -/
theorem keepsOneBatch_iff {s : QueueState α} (h : OneBatch s) (e : QueueEvent α) :
    KeepsOneBatch s e ↔ TakesAfterShutdown s e := by
  constructor
  · intro hkeeps htaker hshutdown
    obtain ⟨s', hs'⟩ := exists_step_of_taker htaker
    have hone := hkeeps s' hs'
    rcases batchChange_step hs' with ⟨_, _, hnone | hsize⟩ | ⟨caller, _, _, _, hcallers, _⟩ |
      ⟨_, _, hnone, _⟩
    · exact htaker hnone
    · exact hsize (h.size (List.ne_nil_of_mem hshutdown))
    · have hlength := congrArg List.length hcallers
      rw [callers, List.length_map, List.length_append, List.length_singleton] at hlength
      have hpos := List.length_pos_of_mem hshutdown
      omega
    · exact htaker hnone
  · intro hguard s' hs'
    have hone := (h.step hguard hs').one
    rwa [callers, List.length_map] at hone

/-- In every run from a new queue at most one batch is under way at any moment, exactly if no batch
is taken while one that `shutdown` took is under way. -/
theorem oneBatch_guarded_iff {s : QueueState α} (hs : (messageQueue α).init s)
    (es : List (QueueEvent α)) : (messageQueue α).Guarded KeepsOneBatch s es ↔
      (messageQueue α).Guarded TakesAfterShutdown s es :=
  System.Reached.guarded_iff
    (fun _ e hreached => keepsOneBatch_iff (oneBatch_of_reached hreached) e) (.init hs)

/-- The events of `shutdown` called twice on a queue with two messages. -/
def shutdownTwice : List (QueueEvent ℕ) :=
  [.enqueue 0 none, .enqueue 1 none, .shutdown, .shutdown]

/-- A new queue for batches of one message. -/
def singleQueue : QueueState ℕ := newMessageQueue ⟨some 1, none⟩ fun _ => none

theorem oneBatch_guarded_iff_shutdownTwice :
    (messageQueue ℕ).Guarded KeepsOneBatch singleQueue shutdownTwice ↔
      (messageQueue ℕ).Guarded TakesAfterShutdown singleQueue shutdownTwice :=
  oneBatch_guarded_iff ⟨_, _, rfl⟩ shutdownTwice

/-- Both calls take a batch. -/
theorem not_oneBatch_shutdownTwice :
    ∃ s, (messageQueue ℕ).exec singleQueue shutdownTwice = some s ∧
      s.inFlight.map Batch.messages = [[0], [1]] ∧
      ¬ (messageQueue ℕ).Guarded KeepsOneBatch singleQueue shutdownTwice := by
  refine ⟨_, Option.some_get (by decide +kernel) |>.symm, by decide +kernel, by decide +kernel⟩

end NestQuickfix
