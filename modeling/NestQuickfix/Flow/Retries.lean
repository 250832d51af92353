import Mathlib.Algebra.Order.BigOperators.Group.List
import NestQuickfix.Flow.Delivery

/-!
# Attempts and retries

An attempt at a message starts when its batch is taken or when the send before it
succeeds, and ends with its own send. A failed batch raises the retry counters of
all its messages, whichever of them failed. As long as no batch fails with a message
that was put back `maxRetries` times already, the counter of a message bounds the
attempts at it.
-/

namespace NestQuickfix

open Lib

variable {α : Type*} [DecidableEq α]

/-- A message queue with the messages attempted and those that failed, in order. -/
structure AttemptLog (α : Type*) where
  queue : QueueState α
  attempts : List α
  failures : List α

namespace QueueState

/-- How often a message was put back. -/
def retries (s : QueueState α) (x : α) : ℤ := (s.retryCount x).getD 0

/-- The first message of the batch that would be taken now. -/
def firstOfBatch (s : QueueState α) : List α := (takeBatch s.maxBatchSize.toNat s.queue).1.take 1

/-- The message to which the loop over a batch comes in this step. -/
def started (s : QueueState α) : QueueEvent α → List α
  | .tick => if s.paused || s.processing || s.queue.isEmpty then [] else s.firstOfBatch
  | .settle i hasMsgType session _ =>
    match processMessage hasMsgType session with
    | .ok () => (s.inFlight[i]?.map fun b => b.later.take 1).getD []
    | .error _ => []
  | .shutdown => if s.processing || s.queue.isEmpty then [] else s.firstOfBatch
  | .poll => if s.waiting = 0 || s.processing || s.queue.isEmpty then [] else s.firstOfBatch
  | _ => []

/-- The batch that fails in this step. -/
def failedBatch (s : QueueState α) : QueueEvent α → Option (Batch α)
  | .settle i hasMsgType session _ =>
    match processMessage hasMsgType session with
    | .ok () => none
    | .error _ => s.inFlight[i]?
  | _ => none

end QueueState

namespace AttemptLog

/-- One event, with the attempts that start and fail in it. -/
def step (w : AttemptLog α) (e : QueueEvent α) : Option (AttemptLog α) :=
  (w.queue.step e).map fun queue =>
    ⟨queue, w.attempts ++ w.queue.started e,
      w.failures ++ ((w.queue.failedBatch e).map Batch.current).toList⟩

/-- No message is attempted more than `n + 1` times, and none is reported as failed
before `n + 1` attempts at it have failed. -/
def WithinRetries (n : ℕ) (w : AttemptLog α) : Prop :=
  (∀ x ∈ w.attempts, w.attempts.count x ≤ n + 1) ∧
    ∀ report ∈ w.queue.failed, n + 1 ≤ w.failures.count report.message

instance (n : ℕ) (w : AttemptLog α) : Decidable (w.WithinRetries n) :=
  have : Decidable (∀ x ∈ w.attempts, w.attempts.count x ≤ n + 1) :=
    List.decidableBAll (fun x => w.attempts.count x ≤ n + 1) w.attempts
  have : Decidable (∀ report ∈ w.queue.failed, n + 1 ≤ w.failures.count report.message) :=
    List.decidableBAll (fun report : FailedMessage α => n + 1 ≤ w.failures.count report.message)
      w.queue.failed
  inferInstanceAs (Decidable (_ ∧ _))

end AttemptLog

/-- A message queue with `maxRetries = n`, watched from its construction on. -/
def watchedQueue (α : Type*) [DecidableEq α] (n : ℕ) : System (AttemptLog α) (QueueEvent α) where
  init w := ∃ config retryCount, config.maxRetries = some (n : ℤ) ∧
    w = ⟨newMessageQueue config retryCount, [], []⟩
  step := AttemptLog.step

/-- Users enqueue new messages, which carry no retry count yet. -/
def EnqueuesNew (s : QueueState α) (e : QueueEvent α) : Prop :=
  ∀ m ∈ QueueState.arriving e, m ∉ s.enqueued ∧ s.retries m = 0

/-- No batch fails with a message that was put back `n` times already. -/
def RetriesLeft (n : ℕ) (s : QueueState α) (e : QueueEvent α) : Prop :=
  ∀ b ∈ s.failedBatch e, ∀ m ∈ b.messages, s.retries m < n

instance (s : QueueState α) (e : QueueEvent α) : Decidable (EnqueuesNew s e) :=
  List.decidableBAll (fun m => m ∉ s.enqueued ∧ s.retries m = 0) (QueueState.arriving e)

instance (n : ℕ) (s : QueueState α) (e : QueueEvent α) : Decidable (RetriesLeft n s e) :=
  have : ∀ b : Batch α, Decidable (∀ m ∈ b.messages, s.retries m < n) := fun b =>
    List.decidableBAll (fun m => s.retries m < n) b.messages
  inferInstanceAs (Decidable (∀ b ∈ s.failedBatch e, ∀ m ∈ b.messages, s.retries m < n))

namespace QueueState

/-! ## Where attempts are -/

/-- How often a message waits for its attempt: queued, or behind the current message of a batch. -/
def unstarted (s : QueueState α) (x : α) : ℕ :=
  s.queue.contents.count x + (s.inFlight.map fun b => b.later.count x).sum

/-- How often a message is queued or in a batch, sent or not. -/
def held (s : QueueState α) (x : α) : ℕ :=
  s.queue.contents.count x + (s.inFlight.map fun b => b.messages.count x).sum

/-- The attempts at a message that succeeded or are under way. -/
def unfailed (s : QueueState α) (x : α) : ℕ :=
  s.sent.count x + (s.inFlight.map fun b => [b.current].count x).sum

theorem count_messages (b : Batch α) (x : α) :
    b.messages.count x = b.delivered.count x + [b.current].count x + b.later.count x := by
  simp only [Batch.messages, List.count_append, List.count_cons, List.count_nil]
  omega

theorem unstarted_le_held (s : QueueState α) (x : α) : s.unstarted x ≤ s.held x := by
  have hsum : (s.inFlight.map fun b => b.later.count x).sum ≤
      (s.inFlight.map fun b => b.messages.count x).sum := by
    apply List.sum_le_sum
    intro b _
    rw [count_messages]
    omega
  rw [unstarted, held]
  omega

/-- What a step that starts some attempts, and in which nothing fails or arrives, does. -/
structure Starts (s s' : QueueState α) (attempts : List α) : Prop where
  retryCount : s'.retryCount = s.retryCount
  maxRetries : s'.maxRetries = s.maxRetries
  enqueued : s'.enqueued = s.enqueued
  failed : s'.failed = s.failed
  held : ∀ x, s'.held x ≤ s.held x
  unstarted : ∀ x, s'.unstarted x + attempts.count x = s.unstarted x
  unfailed : ∀ x, s'.unfailed x = s.unfailed x + attempts.count x

/-- A step that starts nothing. -/
theorem Starts.refl (s : QueueState α) : Starts s s [] := by
  constructor <;> simp

/-- The processing flag, the pause flag and the waiting calls do not matter. -/
theorem Starts.flags {s s' : QueueState α} {attempts : List α} (h : Starts s s' attempts)
    (processing paused : Bool) (waiting : ℕ) :
    Starts s { s' with processing := processing, paused := paused, waiting := waiting } attempts :=
  ⟨h.retryCount, h.maxRetries, h.enqueued, h.failed, h.held, h.unstarted, h.unfailed⟩

theorem Starts.finish {s s' : QueueState α} {attempts : List α} (h : Starts s s' attempts)
    (caller : BatchCaller) : Starts s (s'.finish caller) attempts := by
  cases caller with
  | timer => exact h.flags false s'.paused s'.waiting
  | shutdown => exact h

/-- Taking a batch starts the attempt at its first message. -/
theorem starts_processBatch (s : QueueState α) (caller : BatchCaller) :
    Starts s (s.processBatch caller) s.firstOfBatch := by
  have hsplit := contents_takeBatch s.maxBatchSize.toNat s.queue
  unfold processBatch firstOfBatch
  split
  · next queue hbatch =>
    rw [hbatch] at hsplit ⊢
    have hkept : Starts s { s with queue := queue } [] := by
      constructor <;> simp [QueueState.held, QueueState.unstarted, QueueState.unfailed, hsplit]
    exact hkept.finish caller
  · next m batch queue hbatch =>
    rw [hbatch] at hsplit ⊢
    have hcount : ∀ x, s.queue.contents.count x =
        [m].count x + batch.count x + queue.contents.count x := by
      intro x
      simp only [hsplit, List.count_append, List.count_cons, List.count_nil]
      omega
    refine ⟨rfl, rfl, rfl, rfl, fun x => ?_, fun x => ?_, fun x => ?_⟩
    · simp only [QueueState.held, hcount, List.map_append, List.map_cons, List.map_nil,
        List.sum_append, List.sum_cons, List.sum_nil, count_messages, List.count_nil]
      omega
    · simp only [QueueState.unstarted, hcount, List.map_append, List.map_cons, List.map_nil,
        List.sum_append, List.sum_cons, List.sum_nil, List.take_succ_cons, List.take_zero]
      omega
    · simp only [QueueState.unfailed, List.map_append, List.map_cons, List.map_nil,
        List.sum_append, List.sum_cons, List.sum_nil, List.take_succ_cons, List.take_zero]
      omega

/-- After a successful send the attempt at the next message of the batch starts. -/
theorem starts_sendNext {s : QueueState α} {i : ℕ} {b : Batch α} (h : s.inFlight[i]? = some b) :
    Starts s (s.sendNext i b) (b.later.take 1) := by
  unfold sendNext
  cases hlater : b.later with
  | nil =>
    have hheld := fun x : α => sum_map_eraseIdx h fun b => b.messages.count x
    have hunstarted := fun x : α => sum_map_eraseIdx h fun b => b.later.count x
    have hunfailed := fun x : α => sum_map_eraseIdx h fun b => [b.current].count x
    apply Starts.finish
    refine ⟨rfl, rfl, rfl, rfl, fun x => ?_, fun x => ?_, fun x => ?_⟩
    · have hx := hheld x
      simp only [QueueState.held] at hx ⊢
      omega
    · have hx := hunstarted x
      simp only [QueueState.unstarted, hlater, List.count_nil, List.take_nil] at hx ⊢
      omega
    · have hx := hunfailed x
      simp only [QueueState.unfailed, List.count_append, List.take_nil, List.count_nil] at hx ⊢
      omega
  | cons next later =>
    have hset := fun f : Batch α → ℕ =>
      sum_map_set h ⟨b.delivered ++ [b.current], next, later, b.caller⟩ f
    have hcount : ∀ x, b.later.count x = [next].count x + later.count x := by
      intro x
      simp only [hlater, List.count_cons, List.count_nil]
      omega
    refine ⟨rfl, rfl, rfl, rfl, fun x => ?_, fun x => ?_, fun x => ?_⟩
    · have hx := hset fun b => b.messages.count x
      simp only [QueueState.held, count_messages, List.count_append, hcount] at hx ⊢
      omega
    · have hx := hset fun b => b.later.count x
      simp only [QueueState.unstarted, hcount, List.take_succ_cons, List.take_zero] at hx ⊢
      omega
    · have hx := hset fun b => [b.current].count x
      simp only [QueueState.unfailed, List.count_append, List.take_succ_cons, List.take_zero]
        at hx ⊢
      omega

theorem starts_drain (s : QueueState α) :
    Starts s s.drain (if s.queue.isEmpty then [] else s.firstOfBatch) := by
  unfold drain
  split
  · exact Starts.refl s
  · exact starts_processBatch s .shutdown

/-- Where the flags of the state before do not matter either. -/
theorem Starts.of_flags {s s' : QueueState α} {attempts : List α} {processing paused : Bool}
    {waiting : ℕ}
    (h : Starts { s with processing := processing, paused := paused, waiting := waiting } s'
      attempts) : Starts s s' attempts :=
  ⟨h.retryCount, h.maxRetries, h.enqueued, h.failed, h.held, h.unstarted, h.unfailed⟩

/-- Every step but an arrival and a failure starts the attempts that are recorded. -/
theorem starts_step {s s' : QueueState α} {e : QueueEvent α} (h : s.step e = some s')
    (harriving : arriving e = []) (hfailed : s.failedBatch e = none) :
    Starts s s' (s.started e) := by
  cases e with
  | enqueue m priority => simp [arriving] at harriving
  | tick =>
    obtain rfl := Option.some.inj h
    rw [started, tick]
    split
    · exact Starts.refl s
    · exact (starts_processBatch { s with processing := true } .timer).of_flags
  | settle i hasMsgType session listenerThrows =>
    obtain ⟨b, hb, ⟨hok, rfl⟩ | ⟨error, herror, rfl⟩⟩ := settle_cases h
    · rw [started, hok, hb]
      exact starts_sendNext hb
    · simp [failedBatch, herror, hb] at hfailed
  | pause =>
    obtain rfl := Option.some.inj h
    exact (Starts.refl s).flags s.processing true s.waiting
  | resume =>
    obtain rfl := Option.some.inj h
    exact (Starts.refl s).flags s.processing false s.waiting
  | shutdown =>
    simp only [step] at h
    cases hprocessing : s.processing with
    | true =>
      rw [hprocessing, if_pos rfl] at h
      obtain rfl := Option.some.inj h
      simpa [started, hprocessing] using (Starts.refl s).flags true true (s.waiting + 1)
    | false =>
      rw [hprocessing, if_neg (by simp)] at h
      obtain rfl := Option.some.inj h
      rw [started, hprocessing, Bool.false_or]
      exact (starts_drain { s with processing := false, paused := true }).of_flags
  | poll =>
    simp only [step] at h
    by_cases hwaiting : s.waiting = 0
    · simp [hwaiting] at h
    · rw [if_neg hwaiting] at h
      cases hprocessing : s.processing with
      | true =>
        rw [hprocessing, if_pos rfl] at h
        obtain rfl := Option.some.inj h
        simpa [started, hprocessing] using Starts.refl s
      | false =>
        rw [hprocessing, if_neg (by simp)] at h
        obtain rfl := Option.some.inj h
        simp only [started, hprocessing, hwaiting, decide_false, Bool.false_or]
        exact (starts_drain { s with processing := false, waiting := s.waiting - 1 }).of_flags

/-! ## Failed batches -/

/-- What putting all messages of a list back does. -/
structure PutBack (s s' : QueueState α) (ms : List α) : Prop where
  maxRetries : s'.maxRetries = s.maxRetries
  failed : s'.failed = s.failed
  inFlight : s'.inFlight = s.inFlight
  retries : ∀ x, s'.retries x = s.retries x + ms.count x
  contents : ∀ x, s'.queue.contents.count x = s.queue.contents.count x + ms.count x

theorem PutBack.finish {s s' : QueueState α} {ms : List α} (h : PutBack s s' ms)
    (caller : BatchCaller) : PutBack s (s'.finish caller) ms := by
  cases caller with
  | timer => exact ⟨h.maxRetries, h.failed, h.inFlight, h.retries, h.contents⟩
  | shutdown => exact h

/-- Messages whose counters stay within the limit are all put back. -/
theorem putBack_handleSendError (listenerThrows : α → Bool) {ms : List α} {s : QueueState α}
    (h : ∀ x ∈ ms, s.retries x + ms.count x ≤ s.maxRetries + 1) :
    PutBack s (handleSendError listenerThrows ms s) ms := by
  induction ms generalizing s with
  | nil => exact ⟨rfl, rfl, rfl, by simp [handleSendError], by simp [handleSendError]⟩
  | cons m ms ih =>
    have hcount : ∀ x, ((m :: ms).count x : ℤ) = [m].count x + ms.count x := by
      intro x
      simp only [List.count_cons, List.count_nil]
      omega
    have hone : [m].count m = 1 := by simp
    have hm := h m (by simp)
    rw [hcount, hone] at hm
    have hle : (s.retryCount m).getD 0 ≤ s.maxRetries := by
      have hge : (0 : ℤ) ≤ ms.count m := by omega
      rw [retries] at hm
      omega
    simp only [handleSendError]
    rw [if_pos hle]
    set t := QueueState.put { s with
      retryCount := Function.update s.retryCount m (some ((s.retryCount m).getD 0 + 1)) } m
      (some ((s.retryCount m).getD 0 + 1)) with ht
    have hretries : ∀ x, t.retries x = s.retries x + [m].count x := by
      intro x
      by_cases hx : x = m
      · subst hx
        simp [ht, retries, put]
      · have hcount0 : [m].count x = 0 := by simp [Ne.symm hx]
        simp [ht, retries, put, hx, hcount0]
    have hcontents : ∀ x, t.queue.contents.count x = s.queue.contents.count x + [m].count x := by
      intro x
      rw [show t.queue.contents.count x = _ from (s.queue.contents_enqueue m _).count_eq x]
      simp only [List.count_cons, List.count_nil]
      omega
    have hrest := ih (s := t) (by
      intro x hx
      have hold := h x (by simp [hx])
      rw [hcount] at hold
      rw [hretries]
      have hmax : t.maxRetries = s.maxRetries := rfl
      omega)
    refine ⟨hrest.maxRetries, hrest.failed, hrest.inFlight, fun x => ?_, fun x => ?_⟩
    · rw [hrest.retries, hretries, hcount]
      omega
    · rw [hrest.contents, hcontents]
      have hx := hcount x
      omega

omit [DecidableEq α] in
/-- A batch fails when the send of its message is refused. -/
theorem exists_settle_of_failedBatch {s : QueueState α} {e : QueueEvent α} {b : Batch α}
    (h : s.failedBatch e = some b) : ∃ i hasMsgType session listenerThrows error,
      e = .settle i hasMsgType session listenerThrows ∧
      processMessage hasMsgType session = .error error ∧ s.inFlight[i]? = some b := by
  cases e with
  | settle i hasMsgType session listenerThrows =>
    rw [failedBatch] at h
    cases hanswer : processMessage hasMsgType session with
    | ok => simp [hanswer] at h
    | error error =>
      rw [hanswer] at h
      exact ⟨i, hasMsgType, session, listenerThrows, error, rfl, hanswer, h⟩
  | _ => cases h

/-- A batch that fails leaves its messages to `handleSendError`. -/
theorem failedBatch_cases {s s' : QueueState α} {e : QueueEvent α} {b : Batch α}
    (hfailed : s.failedBatch e = some b) (h : s.step e = some s') :
    ∃ i listenerThrows, s.inFlight[i]? = some b ∧ s' = (handleSendError listenerThrows b.messages
      { s with inFlight := s.inFlight.eraseIdx i }).finish b.caller := by
  obtain ⟨i, hasMsgType, session, listenerThrows, error, rfl, herror, hb⟩ :=
    exists_settle_of_failedBatch hfailed
  obtain ⟨b', hb', ⟨hok, rfl⟩ | ⟨error', herror', rfl⟩⟩ := settle_cases h
  · rw [hok] at herror
    cases herror
  · obtain rfl := Option.some.inj (hb.symm.trans hb')
    exact ⟨i, listenerThrows, hb, rfl⟩

omit [DecidableEq α] in
/-- A step in which a batch fails brings no message, and starts no attempt. -/
theorem started_of_failedBatch {s : QueueState α} {e : QueueEvent α} {b : Batch α}
    (hfailed : s.failedBatch e = some b) : arriving e = [] ∧ s.started e = [] := by
  obtain ⟨i, hasMsgType, session, listenerThrows, error, rfl, herror, -⟩ :=
    exists_settle_of_failedBatch hfailed
  refine ⟨rfl, ?_⟩
  rw [started, herror]

/-- Without the batch that failed, its messages are missing. -/
theorem held_eraseIdx {s : QueueState α} {i : ℕ} {b : Batch α} (h : s.inFlight[i]? = some b)
    (x : α) : { s with inFlight := s.inFlight.eraseIdx i }.held x + b.messages.count x =
      s.held x := by
  have herase := sum_map_eraseIdx h fun b => b.messages.count x
  simp only [held]
  omega

theorem unstarted_eraseIdx {s : QueueState α} {i : ℕ} {b : Batch α} (h : s.inFlight[i]? = some b)
    (x : α) : { s with inFlight := s.inFlight.eraseIdx i }.unstarted x + b.later.count x =
      s.unstarted x := by
  have herase := sum_map_eraseIdx h fun b => b.later.count x
  simp only [unstarted]
  omega

omit [DecidableEq α] in
theorem sent_finish (s : QueueState α) (caller : BatchCaller) :
    (s.finish caller).sent = s.sent ∧ (s.finish caller).inFlight = s.inFlight := by
  cases caller <;> exact ⟨rfl, rfl⟩

theorem sent_handleSendError (listenerThrows : α → Bool) (ms : List α) (s : QueueState α) :
    (handleSendError listenerThrows ms s).sent = s.sent ∧
      (handleSendError listenerThrows ms s).inFlight = s.inFlight := by
  rw [handleSendError_eq]
  exact ⟨rfl, rfl⟩

end QueueState

open QueueState

namespace AttemptLog

/-- Retry counters account for the attempts, and leave no room for a report. -/
structure Charged (n : ℕ) (w : AttemptLog α) : Prop where
  limit : (n : ℤ) ≤ w.queue.maxRetries
  nodup : w.queue.enqueued.Nodup
  held : ∀ x, w.queue.held x ≤ w.queue.enqueued.count x
  fresh : ∀ x ∈ w.attempts, x ∈ w.queue.enqueued
  bounded : ∀ x ∈ w.queue.enqueued, w.queue.retries x ≤ n
  charged : ∀ x ∈ w.queue.enqueued, (w.attempts.count x : ℤ) ≤ w.queue.retries x + 1
  unstarted : ∀ x, 0 < w.queue.unstarted x → (w.attempts.count x : ℤ) ≤ w.queue.retries x
  failed : w.queue.failed = []

namespace Charged

variable {n : ℕ} {w : AttemptLog α}

/-- A message is held at most once. -/
theorem held_le_one (h : w.Charged n) (x : α) : w.queue.held x ≤ 1 :=
  (h.held x).trans (List.nodup_iff_count_le_one.mp h.nodup x)

/-- A held message was enqueued. -/
theorem mem_enqueued (h : w.Charged n) {x : α} (hx : 0 < w.queue.held x) :
    x ∈ w.queue.enqueued :=
  List.count_pos_iff.mp (hx.trans_le (h.held x))

/-- Accounted attempts are within the limit. -/
theorem withinRetries (h : w.Charged n) : w.WithinRetries n := by
  constructor
  · intro x hx
    have henqueued := h.fresh x hx
    have hbounded := h.bounded x henqueued
    have hcharged := h.charged x henqueued
    omega
  · simp [h.failed]

/-- Starting attempts keeps the account: the message was waiting, and was held only once. -/
theorem starts (h : w.Charged n) {s' : QueueState α} {attempts : List α}
    (hstarts : Starts w.queue s' attempts) (failures : List α) :
    Charged n ⟨s', w.attempts ++ attempts, failures⟩ := by
  have hretries : ∀ x, s'.retries x = w.queue.retries x := by
    intro x
    rw [QueueState.retries, hstarts.retryCount]
    rfl
  -- an attempt that starts uses up the only place where its message was waiting
  have hcases : ∀ x, attempts.count x = 0 ∨
      attempts.count x = 1 ∧ 0 < w.queue.unstarted x ∧ s'.unstarted x = 0 := by
    intro x
    have hstart := hstarts.unstarted x
    have hone := (w.queue.unstarted_le_held x).trans (h.held_le_one x)
    omega
  constructor
  · rw [hstarts.maxRetries]
    exact h.limit
  · rw [hstarts.enqueued]
    exact h.nodup
  · intro x
    rw [hstarts.enqueued]
    exact (hstarts.held x).trans (h.held x)
  · intro x hx
    rw [hstarts.enqueued]
    rcases List.mem_append.mp hx with hold | hnew
    · exact h.fresh x hold
    · apply h.mem_enqueued
      have hpos := List.count_pos_iff.mpr hnew
      have hstart := hstarts.unstarted x
      have hle := w.queue.unstarted_le_held x
      omega
  · intro x hx
    rw [hstarts.enqueued] at hx
    rw [hretries]
    exact h.bounded x hx
  · intro x hx
    rw [hstarts.enqueued] at hx
    rw [hretries, List.count_append]
    have hcharged := h.charged x hx
    rcases hcases x with hnone | ⟨hone, hwaiting, -⟩
    · omega
    · have hunstarted := h.unstarted x hwaiting
      omega
  · intro x hx
    change 0 < s'.unstarted x at hx
    rw [hretries, List.count_append]
    have hstart := hstarts.unstarted x
    rcases hcases x with hnone | ⟨-, -, hused⟩
    · have hunstarted := h.unstarted x (by omega)
      omega
    · omega
  · rw [hstarts.failed]
    exact h.failed

/-- A new message has no attempts yet. -/
theorem enqueue (h : w.Charged n) {m : α} (hnew : m ∉ w.queue.enqueued)
    (hretries : w.queue.retries m = 0) (priority : Option ℚ) (failures : List α) :
    Charged n ⟨{ w.queue.put m priority with enqueued := w.queue.enqueued ++ [m] },
      w.attempts, failures⟩ := by
  have hcontents : ∀ x, (w.queue.put m priority).queue.contents.count x =
      w.queue.queue.contents.count x + [m].count x := by
    intro x
    rw [QueueState.put, (w.queue.queue.contents_enqueue m (priority.getD 1)).count_eq x]
    simp only [List.count_cons, List.count_nil]
    omega
  have hattempts : w.attempts.count m = 0 :=
    List.count_eq_zero_of_not_mem fun hmem => hnew (h.fresh m hmem)
  constructor
  · exact h.limit
  · rw [List.nodup_append]
    refine ⟨h.nodup, List.nodup_singleton m, fun a ha b hb heq => hnew ?_⟩
    rwa [← List.mem_singleton.mp hb, ← heq]
  · intro x
    have hold := h.held x
    simp only [QueueState.held, hcontents, List.count_append] at hold ⊢
    have hflight : (w.queue.put m priority).inFlight = w.queue.inFlight := rfl
    rw [hflight]
    omega
  · intro x hx
    exact List.mem_append_left _ (h.fresh x hx)
  · intro x hx
    rcases List.mem_append.mp hx with hold | hlast
    · exact h.bounded x hold
    · rw [List.mem_singleton.mp hlast]
      have hzero : (w.queue.put m priority).retries m = 0 := hretries
      exact hzero.le.trans (by omega)
  · intro x hx
    rcases List.mem_append.mp hx with hold | hlast
    · exact h.charged x hold
    · rw [List.mem_singleton.mp hlast, hattempts]
      have hzero : (w.queue.put m priority).retries m = 0 := hretries
      exact (by omega : ((0 : ℕ) : ℤ) ≤ (w.queue.put m priority).retries m + 1)
  · intro x hx
    by_cases hxm : x = m
    · subst hxm
      rw [hattempts]
      exact hretries.ge
    · have hcount0 : [m].count x = 0 := by simp [Ne.symm hxm]
      apply h.unstarted x
      simp only [QueueState.unstarted, hcontents, hcount0] at hx ⊢
      exact hx
  · exact h.failed

/-- A failed batch is put back whole, and each of its messages is charged for it. -/
theorem putBack (h : w.Charged n) {i : ℕ} {b : Batch α} (hb : w.queue.inFlight[i]? = some b)
    (hleft : ∀ m ∈ b.messages, w.queue.retries m < n) (listenerThrows : α → Bool)
    (failures : List α) :
    Charged n ⟨(handleSendError listenerThrows b.messages
      { w.queue with inFlight := w.queue.inFlight.eraseIdx i }).finish b.caller,
      w.attempts, failures⟩ := by
  have hone : ∀ x, b.messages.count x ≤ 1 := by
    intro x
    have herase := held_eraseIdx hb x
    have hheld := h.held_le_one x
    omega
  have hput : PutBack { w.queue with inFlight := w.queue.inFlight.eraseIdx i }
      ((handleSendError listenerThrows b.messages
        { w.queue with inFlight := w.queue.inFlight.eraseIdx i }).finish b.caller) b.messages := by
    apply PutBack.finish
    apply putBack_handleSendError
    intro x hx
    have hlt := hleft x hx
    have hlimit := h.limit
    have hx1 := hone x
    change w.queue.retries x + _ ≤ w.queue.maxRetries + 1
    omega
  have henqueued : ((handleSendError listenerThrows b.messages
      { w.queue with inFlight := w.queue.inFlight.eraseIdx i }).finish b.caller).enqueued =
        w.queue.enqueued := by
    rw [enqueued_finish, enqueued_handleSendError]
  generalize (handleSendError listenerThrows b.messages
    { w.queue with inFlight := w.queue.inFlight.eraseIdx i }).finish b.caller = s' at hput henqueued
  have hretries : ∀ x, s'.retries x = w.queue.retries x + b.messages.count x := hput.retries
  constructor
  · rw [hput.maxRetries]
    exact h.limit
  · rw [henqueued]
    exact h.nodup
  · intro x
    have herase := held_eraseIdx hb x
    have hold := h.held x
    simp only [QueueState.held, hput.contents, hput.inFlight, henqueued] at herase hold ⊢
    omega
  · intro x hx
    rw [henqueued]
    exact h.fresh x hx
  · intro x hx
    rw [henqueued] at hx
    rw [hretries]
    have hx1 := hone x
    by_cases hmem : x ∈ b.messages
    · have hlt := hleft x hmem
      omega
    · have hzero := List.count_eq_zero_of_not_mem hmem
      have hbounded := h.bounded x hx
      omega
  · intro x hx
    rw [henqueued] at hx
    rw [hretries]
    have hcharged := h.charged x hx
    simp only
    omega
  · intro x hx
    rw [hretries]
    by_cases hmem : x ∈ b.messages
    · -- the failed attempt, or the one that was not made, is charged now
      have hpos := List.count_pos_iff.mpr hmem
      have herase := held_eraseIdx hb x
      have hcharged := h.charged x (h.mem_enqueued (by omega))
      simp only
      omega
    · have hzero := List.count_eq_zero_of_not_mem hmem
      have herase := unstarted_eraseIdx hb x
      have hbefore : 0 < w.queue.unstarted x := by
        simp only [QueueState.unstarted, hput.contents, hput.inFlight] at hx herase ⊢
        omega
      have hunstarted := h.unstarted x hbefore
      simp only
      omega
  · rw [hput.failed]
    exact h.failed

end Charged

/-- While no batch fails with a message that has no retries left, the counters account
for the attempts. -/
theorem charged_watchedQueue (n : ℕ) : System.Invariant (watchedQueue α n)
    (fun w e => EnqueuesNew w.queue e ∧ RetriesLeft n w.queue e) (Charged n) where
  init := by
    rintro w ⟨config, retryCount, hconfig, rfl⟩
    have hlimit : (n : ℤ) ≤ orDefault config.maxRetries 3 := by
      rw [orDefault, hconfig]
      split
      · next hzero => exact (show (n : ℤ) = 0 from hzero).le.trans (by omega)
      · exact le_rfl
    exact ⟨hlimit, List.nodup_nil, fun x => Nat.le_refl 0, by simp,
      fun x hx => absurd hx List.not_mem_nil, fun x hx => absurd hx List.not_mem_nil,
      fun x hx => absurd hx (Nat.lt_irrefl 0), rfl⟩
  step := by
    rintro w e w' h ⟨hnew, hleft⟩ hstep
    obtain ⟨s', hs', rfl⟩ := Option.map_eq_some_iff.mp hstep
    cases hfailed : w.queue.failedBatch e with
    | some b =>
      obtain ⟨i, listenerThrows, hb, rfl⟩ := failedBatch_cases hfailed hs'
      rw [(started_of_failedBatch hfailed).2, List.append_nil]
      exact h.putBack hb (hleft b hfailed) listenerThrows _
    | none =>
      cases harriving : arriving e with
      | nil => exact h.starts (starts_step hs' harriving hfailed) _
      | cons m ms =>
        obtain ⟨priority, rfl⟩ := exists_enqueue_of_arriving harriving
        obtain rfl := Option.some.inj hs'
        obtain ⟨hm, hretries⟩ := hnew m (by simp [arriving])
        have hstarted : w.queue.started (.enqueue m priority) = [] := rfl
        rw [hstarted, List.append_nil]
        exact h.enqueue hm hretries priority _

/-- In every run in which no batch fails with a message that was put back `n` times
already, no message is attempted more than `n + 1` times, and none is reported as
failed before `n + 1` attempts at it have failed. -/
theorem withinRetries_of_reached {n : ℕ} {w : AttemptLog α}
    (h : System.Reached (watchedQueue α n)
      (fun w e => EnqueuesNew w.queue e ∧ RetriesLeft n w.queue e) w) : w.WithinRetries n :=
  ((charged_watchedQueue n).of_reached h).withinRetries

/-- The record of attempts after a list of events, on a new queue with `maxRetries = n`. -/
def attemptsAfter (n : ℕ) (events : List (QueueEvent ℕ)) : AttemptLog ℕ :=
  ((watchedQueue ℕ n).exec ⟨newMessageQueue ⟨none, some n⟩ fun _ => none, [], []⟩ events).getD
    ⟨newMessageQueue ⟨none, some n⟩ fun _ => none, [], []⟩

theorem reached_attemptsAfter {n : ℕ} {guard : AttemptLog ℕ → QueueEvent ℕ → Prop}
    {events : List (QueueEvent ℕ)}
    (hguard : (watchedQueue ℕ n).Guarded guard
      ⟨newMessageQueue ⟨none, some n⟩ fun _ => none, [], []⟩ events)
    (hexec : ((watchedQueue ℕ n).exec
      ⟨newMessageQueue ⟨none, some n⟩ fun _ => none, [], []⟩ events).isSome) :
    System.Reached (watchedQueue ℕ n) guard (attemptsAfter n events) := by
  obtain ⟨w, hw⟩ := Option.isSome_iff_exists.mp hexec
  have hafter : attemptsAfter n events = w := by
    rw [attemptsAfter, hw]
    rfl
  rw [hafter]
  exact System.Reached.exec (.init ⟨_, _, rfl, rfl⟩) hguard hw

/-- Take a batch, and let its first send fail. -/
def failRound : List (QueueEvent ℕ) := [.tick, settleFirst (.error [])]

/-- One failed round, then both messages of the batch are sent. -/
theorem withinRetries_retried :
    (attemptsAfter 1 (.enqueue 0 none :: .enqueue 1 none :: failRound ++
      [.tick, settleFirst (.ok ()), settleFirst (.ok ())])).WithinRetries 1 :=
  withinRetries_of_reached (reached_attemptsAfter (by decide +kernel) (by decide +kernel))

/-- A message that always fails, with another one behind it in its batch. -/
def poisoned : List (QueueEvent ℕ) :=
  .enqueue 0 none :: .enqueue 1 none :: failRound ++ failRound ++ failRound

/-- With `maxRetries = 1` the first message is attempted three times, and the second
is reported as failed without an attempt. -/
theorem not_withinRetries_poisoned :
    System.Reached (watchedQueue ℕ 1) (fun w e => EnqueuesNew w.queue e)
        (attemptsAfter 1 poisoned) ∧
      (attemptsAfter 1 poisoned).attempts = [0, 0, 0] ∧
      (attemptsAfter 1 poisoned).queue.failed.map FailedMessage.message = [0, 1] ∧
      ¬ (attemptsAfter 1 poisoned).WithinRetries 1 :=
  ⟨reached_attemptsAfter (by decide +kernel) (by decide +kernel), by decide +kernel,
    by decide +kernel, by decide +kernel⟩

end AttemptLog

end NestQuickfix
