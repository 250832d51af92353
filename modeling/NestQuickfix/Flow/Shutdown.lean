import NestQuickfix.Flow.Batches
import NestQuickfix.Flow.Retries

/-!
# Draining at shutdown

A call of `shutdown` that finds the processing flag down takes one batch and resolves with its
end. So the call leaves an empty queue if this batch holds all messages, if no other `shutdown`
has a batch under way, and if the batch fails with messages only that are not put back any more.
-/

namespace NestQuickfix

open Lib

variable {α : Type*} [DecidableEq α]

namespace QueueState

/-- A call of `shutdown` finds the processing flag down in this step. -/
def passesFlag (s : QueueState α) : QueueEvent α → Bool
  | .shutdown => !s.processing
  | .poll => s.waiting != 0 && !s.processing
  | _ => false

/-- The batch of a `shutdown` ends in this step. -/
def endsShutdown (s : QueueState α) : QueueEvent α → Bool
  | .settle i hasMsgType session _ =>
    match s.inFlight[i]?, processMessage hasMsgType session with
    | none, _ => false
    | some b, .ok () => b.caller = .shutdown && b.later.isEmpty
    | some b, .error _ => b.caller = .shutdown
  | _ => false

/-- A call of `shutdown` resolves in this step: it takes no message, or its batch ends. -/
def resolves (s : QueueState α) (e : QueueEvent α) : Bool :=
  s.passesFlag e && (s.queue.isEmpty || decide (s.maxBatchSize ≤ 0)) || s.endsShutdown e

/-- The queue is empty, and every message was sent or reported. -/
def Drained (s : QueueState α) : Prop :=
  s.queue.contents = [] ∧
    ∀ x ∈ s.enqueued, x ∈ s.sent ∨ x ∈ s.failed.map FailedMessage.message

instance (s : QueueState α) : Decidable s.Drained :=
  inferInstanceAs (Decidable (_ ∧ _))

omit [DecidableEq α] in
theorem processing_of_passesFlag {s : QueueState α} {e : QueueEvent α}
    (h : s.passesFlag e = true) : s.processing = false := by
  cases e with
  | shutdown => simpa [passesFlag] using h
  | poll => exact (show _ ∧ s.processing = false by simpa [passesFlag] using h).2
  | enqueue | tick | settle | pause | resume => cases h

theorem step_of_passesFlag {s : QueueState α} {e : QueueEvent α}
    (h : s.passesFlag e = true) : ∃ t : QueueState α, s.step e = some t.drain ∧
      t.queue = s.queue ∧ t.inFlight = s.inFlight ∧ t.maxBatchSize = s.maxBatchSize := by
  cases e with
  | shutdown =>
    have hflag := processing_of_passesFlag h
    exact ⟨{ s with paused := true }, by simp [step, hflag], rfl, rfl, rfl⟩
  | poll =>
    obtain ⟨hwaiting, hflag⟩ : s.waiting ≠ 0 ∧ s.processing = false := by
      simpa [passesFlag] using h
    exact ⟨{ s with waiting := s.waiting - 1 }, by simp [step, hflag, hwaiting], rfl, rfl, rfl⟩
  | enqueue | tick | settle | pause | resume => cases h

omit [DecidableEq α] in
/-- A `shutdown` takes messages if it passes the flag and there are some. -/
theorem taker_eq_shutdown_iff {s : QueueState α} {e : QueueEvent α} :
    s.taker e = some .shutdown ↔ s.passesFlag e = true ∧ s.queue.isEmpty = false := by
  cases e with
  | shutdown => simp [taker, passesFlag]
  | poll => simp [taker, passesFlag, and_assoc]
  | tick => simp [taker, passesFlag]
  | enqueue | settle | pause | resume => simp [taker, passesFlag]

/-- The batch of a `shutdown` ends with its last send or with a failure. -/
theorem endsShutdown_cases {s s' : QueueState α} {e : QueueEvent α}
    (h : s.endsShutdown e = true) (hstep : s.step e = some s') :
    ∃ i b, s.inFlight[i]? = some b ∧ b.caller = .shutdown ∧
      ((s'.queue = s.queue ∧ s'.inFlight = s.inFlight.eraseIdx i) ∨
        ∃ listenerThrows, s.failedBatch e = some b ∧
          s' = handleSendError listenerThrows b.messages
            { s with inFlight := s.inFlight.eraseIdx i }) := by
  cases e with
  | settle i hasMsgType session listenerThrows =>
    obtain ⟨b, hb, ⟨hok, rfl⟩ | ⟨error, herror, rfl⟩⟩ := settle_cases hstep
    · obtain ⟨hcaller, hlater⟩ : b.caller = .shutdown ∧ b.later = [] := by
        simpa [endsShutdown, hb, hok] using h
      refine ⟨i, b, hb, hcaller, Or.inl ?_⟩
      simp only [sendNext, hlater, hcaller]
      exact ⟨rfl, rfl⟩
    · have hcaller : b.caller = .shutdown := by simpa [endsShutdown, hb, herror] using h
      refine ⟨i, b, hb, hcaller, Or.inr ⟨listenerThrows, by simp [failedBatch, herror, hb], ?_⟩⟩
      rw [hcaller, finish]
  | enqueue | tick | shutdown | poll | pause | resume => cases h

/-! ## The queue after a step -/

omit [DecidableEq α] in
/-- After `drain` an empty queue is still empty. -/
theorem contents_drain {s : QueueState α}
    (h : s.queue.contents.length ≤ s.maxBatchSize.toNat) : s.drain.queue.contents = [] := by
  unfold drain
  split
  · next hempty => exact PriorityQueue.isEmpty_iff.mp hempty
  · rw [PriorityQueue.contents, List.length_map] at h
    rw [PriorityQueue.contents, items_processBatch, List.drop_eq_nil_of_le h, List.map_nil]

/-- Without arrivals and failures an empty queue stays empty. -/
theorem contents_step {s s' : QueueState α} {e : QueueEvent α} (h : s.step e = some s')
    (harriving : arriving e = []) (hfailed : s.failedBatch e = none)
    (hqueue : s.queue.contents = []) : s'.queue.contents = [] := by
  have hdrain : ∀ t : QueueState α, t.queue = s.queue → t.drain.queue.contents = [] := by
    intro t ht
    exact contents_drain (by rw [ht, hqueue]; exact Nat.zero_le _)
  cases e with
  | enqueue m priority => cases harriving
  | tick =>
    obtain rfl := Option.some.inj h
    unfold tick
    rw [if_pos (by simp [PriorityQueue.isEmpty_iff.mpr hqueue])]
    exact hqueue
  | settle i hasMsgType session listenerThrows =>
    obtain ⟨b, hb, ⟨_, rfl⟩ | ⟨error, herror, rfl⟩⟩ := settle_cases h
    · unfold sendNext
      cases b.later with
      | nil => cases b.caller <;> exact hqueue
      | cons next later => exact hqueue
    · simp [failedBatch, herror, hb] at hfailed
  | pause | resume =>
    obtain rfl := Option.some.inj h
    exact hqueue
  | shutdown =>
    simp only [step] at h
    split at h <;> obtain rfl := Option.some.inj h
    · exact hqueue
    · exact hdrain _ rfl
  | poll =>
    simp only [step] at h
    split at h
    · cases h
    · split at h <;> obtain rfl := Option.some.inj h
      · exact hqueue
      · exact hdrain _ rfl

/-- Messages that were put back too often are only reported. -/
theorem queue_handleSendError (listenerThrows : α → Bool) {ms : List α} {s : QueueState α}
    (h : ∀ m ∈ ms, s.maxRetries < s.retries m) :
    (handleSendError listenerThrows ms s).queue = s.queue := by
  induction ms generalizing s with
  | nil => rfl
  | cons m ms ih =>
    have hm : ¬ (s.retryCount m).getD 0 ≤ s.maxRetries := not_le.mpr (h m List.mem_cons_self)
    have hrest : ∀ m' ∈ ms, (s.handleFailedMessage m).maxRetries <
        (s.handleFailedMessage m).retries m' := fun m' hm' => h m' (List.mem_cons_of_mem m hm')
    simp only [handleSendError]
    rw [if_neg hm]
    split
    · rfl
    · rw [ih hrest]
      rfl

end QueueState

/-! ## Runs -/

open QueueState

/-- No message is enqueued between a call of `shutdown` and its end. -/
def Quiet (s : QueueState α) (e : QueueEvent α) : Prop :=
  arriving e ≠ [] → s.waiting = 0 ∧ .shutdown ∉ s.callers

/-- The condition: a `shutdown` that passes the flag finds no batch of another one under way and
at most one batch of messages, its batch fails only with messages that were put back too often,
and no listener interrupts the treatment of a failed batch. -/
structure DrainsAtOnce (s : QueueState α) (e : QueueEvent α) : Prop where
  alone : s.passesFlag e = true → .shutdown ∉ s.callers
  size : s.taker e = some .shutdown → s.queue.getSize ≤ s.maxBatchSize
  fails : ∀ b ∈ s.failedBatch e, b.caller = .shutdown → ∀ m ∈ b.messages,
    s.maxRetries < s.retries m
  reports : s.ReportsStep e

/-- If a `shutdown` resolves in this step, the queue is drained after it. -/
def ResolvesDrained (s : QueueState α) (e : QueueEvent α) : Prop :=
  s.resolves e = true → ∀ s' ∈ s.step e, s'.Drained

instance (s : QueueState α) (e : QueueEvent α) : Decidable (Quiet s e) :=
  inferInstanceAs (Decidable (_ → _))

instance (s : QueueState α) (e : QueueEvent α) : Decidable (ResolvesDrained s e) :=
  inferInstanceAs (Decidable (_ → ∀ s' ∈ s.step e, s'.Drained))

instance (s : QueueState α) (e : QueueEvent α) : Decidable (DrainsAtOnce s e) :=
  have : ∀ b : Batch α, Decidable (∀ m ∈ b.messages, s.maxRetries < s.retries m) := fun b =>
    List.decidableBAll (fun m => s.maxRetries < s.retries m) b.messages
  decidable_of_iff ((s.passesFlag e = true → .shutdown ∉ s.callers) ∧
    (s.taker e = some .shutdown → s.queue.getSize ≤ s.maxBatchSize) ∧
    (∀ b ∈ s.failedBatch e, b.caller = .shutdown → ∀ m ∈ b.messages,
      s.maxRetries < s.retries m) ∧ s.ReportsStep e)
    ⟨fun h => ⟨h.1, h.2.1, h.2.2.1, h.2.2.2⟩, fun h => ⟨h.alone, h.size, h.fails, h.reports⟩⟩

/-- At most one batch is under way, and that of a `shutdown` has left no message in the queue. -/
structure TakesAll (s : QueueState α) : Prop where
  one : OneBatch s
  empty : .shutdown ∈ s.callers → s.queue.contents = []

namespace TakesAll

variable {s s' : QueueState α} {e : QueueEvent α}

omit [DecidableEq α] in
/-- A step that meets the condition takes no batch beside that of a `shutdown`. -/
theorem takesAfterShutdown (h : TakesAll s) (hdrains : DrainsAtOnce s e) :
    TakesAfterShutdown s e := by
  intro htaker hshutdown
  cases hcaller : s.taker e with
  | none => exact htaker hcaller
  | some caller =>
    cases caller with
    | shutdown => exact hdrains.alone (taker_eq_shutdown_iff.mp hcaller).1 hshutdown
    | timer =>
      have hempty := PriorityQueue.isEmpty_iff.mpr (h.empty hshutdown)
      cases e with
      | tick => simp [taker, hempty] at hcaller
      | shutdown | poll => simp [taker, hempty] at hcaller
      | enqueue | settle | pause | resume => cases hcaller

omit [DecidableEq α] in
/-- Without the batch under way there is none. -/
theorem inFlight_eraseIdx (h : TakesAll s) {i : ℕ} {b : Batch α} (hb : s.inFlight[i]? = some b) :
    s.inFlight.eraseIdx i = [] := by
  obtain ⟨hi, _⟩ := List.getElem?_eq_some_iff.mp hb
  have hone := h.one.one
  rw [callers, List.length_map] at hone
  apply List.eq_nil_of_length_eq_zero
  rw [List.length_eraseIdx_of_lt hi]
  omega

theorem inFlight_of_failedBatch (h : TakesAll s) {b : Batch α} (hfailed : s.failedBatch e = some b)
    (hstep : s.step e = some s') : s'.inFlight = [] := by
  obtain ⟨i, listenerThrows, hb, rfl⟩ := failedBatch_cases hfailed hstep
  rw [(sent_finish _ b.caller).2, (sent_handleSendError ..).2]
  exact h.inFlight_eraseIdx hb

theorem step (h : TakesAll s) (hquiet : Quiet s e) (hdrains : DrainsAtOnce s e)
    (hstep : s.step e = some s') : TakesAll s' := by
  refine ⟨h.one.step (h.takesAfterShutdown hdrains) hstep, fun hshutdown => ?_⟩
  cases hfailed : s.failedBatch e with
  | some b => simp [callers, h.inFlight_of_failedBatch hfailed hstep] at hshutdown
  | none =>
    rcases batchChange_step hstep with ⟨hcallers, _, _⟩ | ⟨caller, htaker, hprocessing, _,
      hcallers, _⟩ | ⟨i, caller, _, hget, hcallers, _⟩
    · rw [hcallers] at hshutdown
      have harriving : arriving e = [] := by
        by_contra hne
        exact (hquiet hne).2 hshutdown
      exact contents_step hstep harriving hfailed (h.empty hshutdown)
    · have hnil := h.one.callers_eq_nil hprocessing
        (h.takesAfterShutdown hdrains (by simp [htaker]))
      obtain rfl : BatchCaller.shutdown = caller := by simpa [hcallers, hnil] using hshutdown
      obtain ⟨t, ht, hqueue, _, hmax⟩ := step_of_passesFlag (taker_eq_shutdown_iff.mp htaker).1
      obtain rfl := Option.some.inj (ht.symm.trans hstep)
      have hsize := hdrains.size htaker
      refine contents_drain ?_
      rw [hqueue, hmax, PriorityQueue.contents, List.length_map]
      rw [PriorityQueue.getSize] at hsize
      omega
    · have hold := List.mem_of_mem_eraseIdx (hcallers ▸ hshutdown)
      have harriving : arriving e = [] := by
        by_contra hne
        exact (hquiet hne).2 hold
      exact contents_step hstep harriving hfailed (h.empty hold)

/-- A call that resolves leaves neither a queued message nor a batch. -/
theorem empty_of_resolves (h : TakesAll s) (hdrains : DrainsAtOnce s e)
    (hresolves : s.resolves e = true) (hstep : s.step e = some s') :
    s'.queue.contents = [] ∧ s'.inFlight = [] := by
  rw [resolves, Bool.or_eq_true, Bool.and_eq_true] at hresolves
  rcases hresolves with ⟨hpasses, hnothing⟩ | hends
  · obtain ⟨t, ht, hqueue, hflight, _⟩ := step_of_passesFlag hpasses
    obtain rfl := Option.some.inj (ht.symm.trans hstep)
    have hempty : s.queue.isEmpty = true := by
      by_contra hne
      have hroom : s.maxBatchSize ≤ 0 := by simpa [hne] using hnothing
      have hsize := hdrains.size (taker_eq_shutdown_iff.mpr ⟨hpasses, Bool.eq_false_iff.mpr hne⟩)
      have hpos : s.queue.getSize ≠ 0 := fun hzero => hne (by
        rw [PriorityQueue.isEmpty, List.eq_nil_of_length_eq_zero hzero]
        rfl)
      omega
    have hnil := h.one.callers_eq_nil (processing_of_passesFlag hpasses) (hdrains.alone hpasses)
    rw [drain, hqueue, if_pos hempty, hqueue, hflight]
    exact ⟨PriorityQueue.isEmpty_iff.mp hempty, List.map_eq_nil_iff.mp hnil⟩
  · obtain ⟨i, b, hb, hcaller, hends⟩ := endsShutdown_cases hends hstep
    have hmem : BatchCaller.shutdown ∈ s.callers :=
      List.mem_map.mpr ⟨b, List.mem_of_getElem? hb, hcaller⟩
    rcases hends with ⟨hqueue, hflight⟩ | ⟨listenerThrows, hfailed, rfl⟩
    · rw [hqueue, hflight]
      exact ⟨h.empty hmem, h.inFlight_eraseIdx hb⟩
    · refine ⟨?_, h.inFlight_of_failedBatch hfailed hstep⟩
      have hsame : (handleSendError listenerThrows b.messages
          { s with inFlight := s.inFlight.eraseIdx i }).queue = s.queue :=
        queue_handleSendError listenerThrows (hdrains.fails b hfailed hcaller)
      rw [hsame]
      exact h.empty hmem

end TakesAll

theorem takesAll_of_reached {s : QueueState α}
    (h : System.Reached (messageQueue α) (fun s e => Quiet s e ∧ DrainsAtOnce s e) s) :
    TakesAll s := by
  have hinv : System.Invariant (messageQueue α) (fun s e => Quiet s e ∧ DrainsAtOnce s e)
      TakesAll := by
    refine ⟨?_, fun s e s' hall hguard hstep => hall.step hguard.1 hguard.2 hstep⟩
    rintro s ⟨config, retryCount, rfl⟩
    exact ⟨⟨by simp [callers, newMessageQueue], rfl, fun hne => absurd rfl hne⟩, fun _ => rfl⟩
  exact hinv.of_reached h

/-- A queue without messages and batches has lost none of them. -/
theorem drained_of_reached {s : QueueState α}
    (h : System.Reached (messageQueue α) ReportsStep s) (hqueue : s.queue.contents = [])
    (hflight : s.inFlight = []) : s.Drained := by
  refine ⟨hqueue, fun x hx => ?_⟩
  have hplaces := (count_enqueued_le_places x).of_reached h
  have hpos := List.count_pos_iff.mpr hx
  rw [places, hqueue, hflight] at hplaces
  have hpending : pendingCount ([] : List (Batch α)) x = 0 := rfl
  rw [hpending, List.count_nil] at hplaces
  by_cases hsent : x ∈ s.sent
  · exact Or.inl hsent
  · rw [List.count_eq_zero_of_not_mem hsent] at hplaces
    exact Or.inr (List.count_pos_iff.mp (by omega))

/-- In every run from a new queue, if no message is enqueued between a call of `shutdown` and its
end, every call that resolves leaves the queue drained, as long as each step meets the
condition. -/
theorem resolvesDrained_guarded {s : QueueState α} (hs : (messageQueue α).init s)
    {es : List (QueueEvent α)} (hquiet : (messageQueue α).Guarded Quiet s es)
    (hdrains : (messageQueue α).Guarded DrainsAtOnce s es) :
    (messageQueue α).Guarded ResolvesDrained s es := by
  refine System.Reached.guarded_imp (P := fun s e => Quiet s e ∧ DrainsAtOnce s e) ?_ (.init hs)
    (System.guarded_and hquiet hdrains)
  intro s e hreached hguard hresolves s' hs'
  have hreports := (hreached.step hguard hs').mono fun _ _ hboth => hboth.2.reports
  obtain ⟨hqueue, hflight⟩ :=
    (takesAll_of_reached hreached).empty_of_resolves hguard.2 hresolves hs'
  exact drained_of_reached hreports hqueue hflight

/-- `shutdown` waits for a batch that fails, and sends its messages then. -/
def shutdownBehindBatch : List (QueueEvent ℕ) :=
  twoMessages ++ [.shutdown, settleFirst (.error []), .poll, settleFirst (.ok ()),
    settleFirst (.ok ())]

theorem resolvesDrained_shutdownBehindBatch : (messageQueue ℕ).Guarded ResolvesDrained
    (newMessageQueue ⟨none, none⟩ fun _ => none) shutdownBehindBatch :=
  resolvesDrained_guarded ⟨_, _, rfl⟩ (by decide +kernel) (by decide +kernel)

/-- The events of `shutdown` on a queue with two messages, up to its end. -/
def shutdownOnce : List (QueueEvent ℕ) :=
  [.enqueue 0 none, .enqueue 1 none, .shutdown, settleFirst (.ok ())]

/-- The second message stays in the queue. -/
theorem not_resolvesDrained_shutdownOnce :
    (messageQueue ℕ).Guarded Quiet singleQueue shutdownOnce ∧
      (∃ s, (messageQueue ℕ).exec singleQueue shutdownOnce = some s ∧
        s.queue.contents = [1] ∧ s.sent = [0] ∧ s.failed.map FailedMessage.message = []) ∧
      ¬ (messageQueue ℕ).Guarded ResolvesDrained singleQueue shutdownOnce :=
  ⟨by decide +kernel, ⟨_, Option.some_get (by decide +kernel) |>.symm, by decide +kernel,
    by decide +kernel, by decide +kernel⟩, by decide +kernel⟩

end NestQuickfix
