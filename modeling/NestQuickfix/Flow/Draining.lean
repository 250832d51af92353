import NestQuickfix.Flow.Shutdown
import NestQuickfix.Lib.Potential

/-!
# The queue runs dry

Nobody has to shut a queue down for its messages to leave it. Every message is put back a
limited number of times, whatever the sessions answer, so the timers need a limited number
of batches, and what they leave behind was sent or reported.
-/

namespace NestQuickfix

open Lib

variable {α : Type*}

namespace QueueState

/-- How often a message can still be put back. -/
def putBacksLeft (s : QueueState α) (x : α) : ℕ := (s.maxRetries + 1 - s.retries x).toNat

/-- What is left to do for the messages of a batch: the sends, and two steps each time that a
message is put back. -/
def batchWork (k : α → ℕ) (b : Batch α) : ℕ :=
  (b.messages.map fun x => 2 * k x).sum + b.pending.length

/-- What is left to do for queued messages and batches: a queued message is taken and sent, and
possibly put back. -/
def workOf (k : α → ℕ) (queued : List α) (batches : List (Batch α)) : ℕ :=
  (queued.map fun x => 2 * k x + 2).sum + (batches.map (batchWork k)).sum

/-- What is left to do. -/
def work (s : QueueState α) : ℕ := workOf s.putBacksLeft s.queue.contents s.inFlight

/-- The queue goes on by itself: a send ends, a timer takes a batch, or a call of `shutdown`
that has waited finds the processing flag down. -/
def goesOn (s : QueueState α) : QueueEvent α → Bool
  | .settle .. => true
  | .tick => (s.taker .tick).isSome
  | .poll => !s.processing
  | _ => false

/-- Nothing is under way, and what is queued waits because the queue is paused. -/
structure AtRest (s : QueueState α) : Prop where
  inFlight : s.inFlight = []
  waiting : s.waiting = 0
  queue : s.paused = true ∨ s.queue.contents = []

variable {s s' : QueueState α} {e : QueueEvent α}

/-! ## What is left to do -/

theorem workOf_mono {k k' : α → ℕ} (hk : ∀ x, k' x ≤ k x) (queued : List α)
    (batches : List (Batch α)) : workOf k' queued batches ≤ workOf k queued batches := by
  have hbatch : ∀ b : Batch α, batchWork k' b ≤ batchWork k b := fun b =>
    Nat.add_le_add_right (List.sum_le_sum fun x _ => Nat.mul_le_mul_left 2 (hk x)) _
  refine Nat.add_le_add (List.sum_le_sum fun x _ => ?_) (List.sum_le_sum fun b _ => hbatch b)
  exact Nat.add_le_add_right (Nat.mul_le_mul_left 2 (hk x)) 2

theorem work_finish (s : QueueState α) (caller : BatchCaller) :
    (s.finish caller).work = s.work ∧ (s.finish caller).waiting = s.waiting := by
  cases caller <;> exact ⟨rfl, rfl⟩

theorem work_put (s : QueueState α) (m : α) (priority : Option ℚ) :
    (s.put m priority).work = s.work + (2 * s.putBacksLeft m + 2) := by
  have hsum := ((s.queue.contents_enqueue m (priority.getD 1)).map fun x =>
    2 * s.putBacksLeft x + 2).sum_eq
  rw [List.map_cons, List.sum_cons] at hsum
  have hput : (s.put m priority).work = workOf s.putBacksLeft
      (s.queue.enqueue m (priority.getD 1)).contents s.inFlight := rfl
  rw [hput, work, workOf, workOf]
  omega

/-- Taking a batch is one step for each of its messages. -/
theorem work_processBatch (s : QueueState α) (caller : BatchCaller) :
    (s.processBatch caller).work + (takeBatch s.maxBatchSize.toNat s.queue).1.length = s.work ∧
      (s.processBatch caller).waiting = s.waiting := by
  have hcontents := contents_takeBatch s.maxBatchSize.toNat s.queue
  unfold processBatch
  split
  · next queue htake =>
    rw [htake] at hcontents ⊢
    obtain ⟨hwork, hwaiting⟩ := work_finish { s with queue := queue } caller
    rw [hwork, hwaiting, work.eq_def s, hcontents]
    exact ⟨rfl, rfl⟩
  · next m batch queue htake =>
    rw [htake] at hcontents ⊢
    dsimp only at hcontents ⊢
    refine ⟨?_, rfl⟩
    have hqueued : ((m :: batch).map fun x => 2 * s.putBacksLeft x + 2).sum =
        ((m :: batch).map fun x => 2 * s.putBacksLeft x).sum + 2 * (m :: batch).length := by
      rw [List.sum_map_add, List.map_const', List.sum_replicate, Nat.nsmul_eq_mul, Nat.mul_comm]
    have hbatch : batchWork s.putBacksLeft ⟨[], m, batch, caller⟩ =
        ((m :: batch).map fun x => 2 * s.putBacksLeft x).sum + (m :: batch).length := rfl
    have hwork :
        work { s with queue := queue, inFlight := s.inFlight ++ [⟨[], m, batch, caller⟩] } =
        workOf s.putBacksLeft queue.contents (s.inFlight ++ [⟨[], m, batch, caller⟩]) := rfl
    rw [hwork, work.eq_def s, hcontents, workOf, workOf, List.map_append, List.sum_append,
      List.map_append, List.sum_append, hqueued, List.map_singleton, List.sum_singleton, hbatch]
    omega

/-- A successful send is one step, and the last one of a batch leaves nothing to put back. -/
theorem work_sendNext_lt {i : ℕ} {b : Batch α} (hb : s.inFlight[i]? = some b) :
    (s.sendNext i b).work < s.work ∧ (s.sendNext i b).waiting = s.waiting := by
  have hbatch : batchWork s.putBacksLeft b =
      (b.messages.map fun x => 2 * s.putBacksLeft x).sum + (b.later.length + 1) := rfl
  unfold sendNext
  cases hlater : b.later with
  | nil =>
    have herase := sum_map_eraseIdx hb (batchWork s.putBacksLeft)
    obtain ⟨hwork, hwaiting⟩ := work_finish
      { s with sent := s.sent ++ [b.current], inFlight := s.inFlight.eraseIdx i } b.caller
    refine ⟨?_, hwaiting⟩
    have herased : work { s with
        sent := s.sent ++ [b.current], inFlight := s.inFlight.eraseIdx i } =
      workOf s.putBacksLeft s.queue.contents (s.inFlight.eraseIdx i) := rfl
    dsimp only
    rw [hwork, herased, work, workOf, workOf]
    omega
  | cons next later =>
    have hset := sum_map_set hb ⟨b.delivered ++ [b.current], next, later, b.caller⟩
      (batchWork s.putBacksLeft)
    refine ⟨?_, rfl⟩
    have hmessages : Batch.messages ⟨b.delivered ++ [b.current], next, later, b.caller⟩ =
        b.messages := by simp [Batch.messages, hlater]
    have hnext : batchWork s.putBacksLeft ⟨b.delivered ++ [b.current], next, later, b.caller⟩ =
        (b.messages.map fun x => 2 * s.putBacksLeft x).sum + (later.length + 1) := by
      rw [batchWork, hmessages]
      rfl
    rw [hlater, List.length_cons] at hbatch
    have hwork : work { s with
        sent := s.sent ++ [b.current]
        inFlight := s.inFlight.set i ⟨b.delivered ++ [b.current], next, later, b.caller⟩ } =
      workOf s.putBacksLeft s.queue.contents
        (s.inFlight.set i ⟨b.delivered ++ [b.current], next, later, b.caller⟩) := rfl
    dsimp only
    rw [hwork, work, workOf, workOf]
    omega

variable [DecidableEq α]

/-- A message that is put back has used one of its chances. -/
theorem putBacksLeft_update {m : α} (h : s.retries m ≤ s.maxRetries) (x : α) :
    putBacksLeft { s with
        retryCount := Function.update s.retryCount m (some (s.retries m + 1)) } x =
      if x = m then s.putBacksLeft m - 1 else s.putBacksLeft x := by
  unfold putBacksLeft retries
  dsimp only
  split
  · next hx =>
    subst hx
    rw [Function.update_self, Option.getD_some]
    unfold retries at h
    omega
  · next hx => rw [Function.update_of_ne hx]

/-- A failed batch costs two steps for each chance that its messages have. -/
theorem work_handleSendError_le (listenerThrows : α → Bool) (ms : List α) (s : QueueState α) :
    (handleSendError listenerThrows ms s).work ≤
      s.work + (ms.map fun x => 2 * s.putBacksLeft x).sum := by
  induction ms generalizing s with
  | nil => exact Nat.le_refl _
  | cons m ms ih =>
    rw [List.map_cons, List.sum_cons]
    simp only [handleSendError]
    split
    · next hretries =>
      set t : QueueState α :=
        { s with retryCount := Function.update s.retryCount m (some (s.retries m + 1)) } with ht
      have hleft := fun x => putBacksLeft_update (s := s) hretries x
      have hle : ∀ x, t.putBacksLeft x ≤ s.putBacksLeft x := by
        intro x
        rw [hleft]
        split
        · next hx => rw [hx]; exact Nat.sub_le _ _
        · exact Nat.le_refl _
      have hchance : t.putBacksLeft m + 1 = s.putBacksLeft m := by
        rw [hleft, if_pos rfl]
        unfold putBacksLeft
        have hretries' : s.retries m ≤ s.maxRetries := hretries
        omega
      have hput := work_put t m (some (s.retries m + 1))
      have hwork : t.work ≤ s.work := workOf_mono hle _ _
      have hrest : (ms.map fun x => 2 * t.putBacksLeft x).sum ≤
          (ms.map fun x => 2 * s.putBacksLeft x).sum :=
        List.sum_le_sum fun x _ => Nat.mul_le_mul_left 2 (hle x)
      have htail := ih (t.put m (some (s.retries m + 1)))
      change _ ≤ _ + (ms.map fun x => 2 * t.putBacksLeft x).sum at htail
      refine Nat.le_trans htail ?_
      omega
    · split
      · exact Nat.le_add_right _ _
      · have htail := ih (s.handleFailedMessage m)
        change _ ≤ s.work + (ms.map fun x => 2 * s.putBacksLeft x).sum at htail
        omega

/-! ## Going on -/

omit [DecidableEq α] in
theorem work_drain_le (s : QueueState α) :
    s.drain.work ≤ s.work ∧ s.drain.waiting = s.waiting := by
  unfold drain
  split
  · exact ⟨Nat.le_refl _, rfl⟩
  · obtain ⟨hwork, hwaiting⟩ := work_processBatch s .shutdown
    exact ⟨by omega, hwaiting⟩

theorem waiting_handleSendError (listenerThrows : α → Bool) (ms : List α) (s : QueueState α) :
    (handleSendError listenerThrows ms s).waiting = s.waiting := by rw [handleSendError_eq]

/-- The end of a send uses up some of the work. -/
theorem work_lt_of_settle {i : ℕ} {hasMsgType : Bool} {session : Option (Except JSString Unit)}
    {listenerThrows : α → Bool}
    (hstep : s.step (.settle i hasMsgType session listenerThrows) = some s') :
    s'.work < s.work ∧ s'.waiting = s.waiting := by
  obtain ⟨b, hb, ⟨_, rfl⟩ | ⟨error, _, rfl⟩⟩ := settle_cases hstep
  · exact work_sendNext_lt hb
  · have herase := sum_map_eraseIdx hb (batchWork s.putBacksLeft)
    have hle := work_handleSendError_le listenerThrows b.messages
      { s with inFlight := s.inFlight.eraseIdx i }
    have hbatch : batchWork s.putBacksLeft b =
        (b.messages.map fun x => 2 * s.putBacksLeft x).sum + (b.later.length + 1) := rfl
    have herased : work { s with inFlight := s.inFlight.eraseIdx i } =
        workOf s.putBacksLeft s.queue.contents (s.inFlight.eraseIdx i) := rfl
    obtain ⟨hwork, hwaiting⟩ := work_finish (handleSendError listenerThrows b.messages
      { s with inFlight := s.inFlight.eraseIdx i }) b.caller
    refine ⟨?_, hwaiting.trans (waiting_handleSendError ..)⟩
    change _ ≤ _ + (b.messages.map fun x => 2 * s.putBacksLeft x).sum at hle
    rw [herased, workOf] at hle
    rw [hwork, work.eq_def s, workOf]
    omega

/-- Every step in which the queue goes on uses up some of its work or of its waiting calls. -/
theorem work_lt_of_step (hsize : 0 < s.maxBatchSize) (hgoes : s.goesOn e = true)
    (hstep : s.step e = some s') : s'.work + s'.waiting < s.work + s.waiting := by
  cases e with
  | settle i hasMsgType session listenerThrows =>
    obtain ⟨hlt, hwaiting⟩ := work_lt_of_settle hstep
    omega
  | tick =>
    obtain rfl := Option.some.inj hstep
    have hskip : (s.paused || s.processing || s.queue.isEmpty) = false := by
      by_contra hskip
      rw [Bool.not_eq_false] at hskip
      simp [goesOn, taker, hskip] at hgoes
    have hqueue : s.queue.isEmpty = false := (Bool.or_eq_false_iff.mp hskip).2
    obtain ⟨m, ms, queue, htake⟩ := takeBatch_eq_cons (by omega : 0 < s.maxBatchSize.toNat) hqueue
    obtain ⟨hwork, hwaiting⟩ := work_processBatch { s with processing := true } .timer
    have hflag : work { s with processing := true } = s.work := rfl
    dsimp only at hwork hwaiting
    rw [htake, List.length_cons, hflag] at hwork
    rw [tick, hskip, if_neg Bool.false_ne_true]
    omega
  | poll =>
    have hprocessing : s.processing = false := by simpa [goesOn] using hgoes
    simp only [step] at hstep
    split at hstep
    · cases hstep
    · next hwaiting =>
      rw [if_neg (by simp [hprocessing])] at hstep
      obtain rfl := Option.some.inj hstep
      obtain ⟨hle, hdrain⟩ := work_drain_le { s with waiting := s.waiting - 1 }
      have hless : work { s with waiting := s.waiting - 1 } = s.work := rfl
      dsimp only at hdrain
      omega
  | enqueue | pause | resume | shutdown => cases hgoes

/-- The processing flag is set only while a batch of a timer is under way. -/
theorem timer_of_processing : System.Invariant (messageQueue α) (fun _ _ => True)
    fun s => s.processing = true → .timer ∈ s.callers where
  init := by
    rintro s ⟨config, retryCount, rfl⟩ hprocessing
    cases hprocessing
  step := by
    intro s e s' hs _ hstep hprocessing
    rcases batchChange_step hstep with ⟨hcallers, hflag, _⟩ | ⟨caller, _, _, _, hcallers, hflag⟩ |
      ⟨i, caller, _, hget, hcallers, hflag⟩
    · rw [hcallers]
      exact hs (hflag ▸ hprocessing)
    · rw [hflag, decide_eq_true_eq] at hprocessing
      rw [hcallers, hprocessing]
      exact List.mem_append_right _ (List.mem_singleton_self _)
    · rw [hflag, Bool.and_eq_true, decide_eq_true_eq] at hprocessing
      obtain ⟨j, hj⟩ := List.mem_iff_getElem?.mp (hs hprocessing.1)
      rw [hcallers, List.mem_eraseIdx_iff_getElem?]
      refine ⟨j, ?_, hj⟩
      rintro rfl
      exact hprocessing.2 (Option.some.inj (hget.symm.trans hj))

/-- The queue is at rest exactly when it cannot go on. -/
theorem atRest_iff (hflag : s.processing = true → .timer ∈ s.callers) :
    s.AtRest ↔ ∀ e, s.goesOn e = true → s.step e = none := by
  constructor
  · rintro ⟨hflight, hwaiting, hqueue⟩ e hgoes
    cases e with
    | settle i hasMsgType session listenerThrows => simp [step, hflight]
    | tick =>
      rcases hqueue with hpaused | hqueue
      · simp [goesOn, taker, hpaused] at hgoes
      · simp [goesOn, taker, PriorityQueue.isEmpty_iff.mpr hqueue] at hgoes
    | poll => simp [step, hwaiting]
    | enqueue | pause | resume | shutdown => cases hgoes
  · intro hnone
    have hflight : s.inFlight = [] := by
      by_contra hne
      obtain ⟨b, batches, hcons⟩ := List.exists_cons_of_ne_nil hne
      have hsettle := hnone (.settle 0 true (some (.ok ())) fun _ => false) rfl
      simp [step, hcons, processMessage] at hsettle
    have hprocessing : s.processing = false := by
      by_contra htrue
      have htimer := hflag (Bool.not_eq_false _ ▸ htrue)
      rw [callers, hflight] at htimer
      cases htimer
    refine ⟨hflight, ?_, ?_⟩
    · by_contra hwaiting
      have hpoll := hnone .poll (by simp [goesOn, hprocessing])
      simp [step, hwaiting, hprocessing] at hpoll
    · by_contra hqueue
      obtain ⟨hpaused, hcontents⟩ := not_or.mp hqueue
      have hempty : s.queue.isEmpty = false := by
        rw [Bool.eq_false_iff, ne_eq, PriorityQueue.isEmpty_iff]
        exact hcontents
      have htick := hnone .tick (by simp [goesOn, taker, hprocessing, hempty, hpaused])
      cases htick

end QueueState

/-! ## Runs -/

open QueueState

/-- Left to itself the queue runs dry: the runs in which it only goes on are no longer than the
work that their first state has left, whatever the sends answer. One that cannot be continued
has left no batch and no call of `shutdown` waiting, and unless the queue is paused, it is empty
and every message was sent or reported. -/
theorem runs_dry {s : QueueState α} [DecidableEq α]
    (h : System.Reached (messageQueue α) ReportsStep s) (hsize : 0 < s.maxBatchSize) :
    ∀ es s', (messageQueue α).Guarded (fun s e => s.goesOn e = true ∧ s.ReportsStep e) s es →
      (messageQueue α).exec s es = some s' → es.length ≤ s.work + s.waiting ∧
        ((∀ e, s'.goesOn e = true → s'.step e = none) ↔ s'.AtRest) ∧
        (s'.AtRest → s'.paused = false → s'.Drained) := by
  intro es s' hes hexec
  have hlength := System.length_add_le (S := messageQueue α) (I := fun s => 0 < s.maxBatchSize)
    (Φ := fun s => s.work + s.waiting)
    (fun t e t' ht hguard hstep => ⟨by rwa [maxBatchSize_step hstep],
      work_lt_of_step ht hguard.1 hstep⟩) hes hsize hexec
  have hreached : System.Reached (messageQueue α) ReportsStep s' :=
    h.exec (System.guarded_mono (fun _ _ hguard => hguard.2) hes) hexec
  have hflag := timer_of_processing.of_reached (hreached.mono fun _ _ _ => trivial)
  refine ⟨by omega, (atRest_iff hflag).symm, fun hrest hpaused => ?_⟩
  have hcontents := hrest.queue.resolve_left (by simp [hpaused])
  exact drained_of_reached hreached hcontents hrest.inFlight

/-- The first send fails, and the next batch is sent. -/
def sentLater : List (QueueEvent ℕ) :=
  [settleFirst (.error []), .tick, settleFirst (.ok ()), settleFirst (.ok ())]

/-- Of the eighteen steps that two messages in a batch have left, four are used. -/
theorem runs_dry_sentLater : ∃ s', (messageQueue ℕ).exec (queueAfter twoMessages) sentLater =
    some s' ∧ (queueAfter twoMessages).work + (queueAfter twoMessages).waiting = 18 ∧
      sentLater.length ≤ (queueAfter twoMessages).work + (queueAfter twoMessages).waiting ∧
        s'.Drained := by
  have hreached : System.Reached (messageQueue ℕ) ReportsStep (queueAfter twoMessages) :=
    reached_queueAfter (by decide +kernel) (by decide +kernel)
  have hrun : ∃ s', (messageQueue ℕ).exec (queueAfter twoMessages) sentLater = some s' ∧
      s'.inFlight.length = 0 ∧ s'.waiting = 0 ∧ s'.paused = false ∧
        s'.queue.contents = [] := by decide +kernel
  obtain ⟨s', hexec, hflight, hwaiting, hpaused, hqueue⟩ := hrun
  obtain ⟨hlength, -, hdrained⟩ := runs_dry hreached (by decide +kernel) sentLater s'
    (by decide +kernel) hexec
  exact ⟨s', hexec, by decide +kernel, hlength,
    hdrained ⟨List.eq_nil_of_length_eq_zero hflight, hwaiting, Or.inr hqueue⟩ hpaused⟩

end NestQuickfix
