import NestQuickfix.Flow.MessageQueue
import NestQuickfix.Lib.Splitting

/-!
# Delivery of queued messages

Each message is counted where it is: in the queue, waiting in a batch under way,
sent, or reported as failed. Every step keeps these counts, except a failure
in the middle of a batch: the messages sent before it are put back as well and
are counted twice from then on.
-/

namespace NestQuickfix

open Lib

variable {α : Type*} [DecidableEq α]

/-- The messages of a batch that are not sent yet. -/
def Batch.pending (b : Batch α) : List α := b.current :: b.later

namespace QueueState

/-- How often a message waits in a batch under way. -/
def pendingCount (inFlight : List (Batch α)) (x : α) : ℕ :=
  (inFlight.map fun b => b.pending.count x).sum

/-- How often a message is found: queued, waiting in a batch, sent or reported. -/
def places (s : QueueState α) (x : α) : ℕ :=
  s.queue.contents.count x + pendingCount s.inFlight x + s.sent.count x +
    (s.failed.map FailedMessage.message).count x

theorem pendingCount_append (l l' : List (Batch α)) (x : α) :
    pendingCount (l ++ l') x = pendingCount l x + pendingCount l' x := by
  simp [pendingCount]

theorem pendingCount_cons (b : Batch α) (l : List (Batch α)) (x : α) :
    pendingCount (b :: l) x = b.pending.count x + pendingCount l x := by
  simp [pendingCount]

/-- Removing a batch removes its waiting messages. -/
theorem pendingCount_eraseIdx {l : List (Batch α)} {i : ℕ} {b : Batch α} (h : l[i]? = some b)
    (x : α) : pendingCount (l.eraseIdx i) x + b.pending.count x = pendingCount l x :=
  sum_map_eraseIdx h fun b => b.pending.count x

/-- Replacing a batch exchanges its waiting messages. -/
theorem pendingCount_set {l : List (Batch α)} {i : ℕ} {b : Batch α} (h : l[i]? = some b)
    (b' : Batch α) (x : α) : pendingCount (l.set i b') x + b.pending.count x =
      pendingCount l x + b'.pending.count x :=
  sum_map_set h b' fun b => b.pending.count x

theorem places_put (s : QueueState α) (m : α) (priority : Option ℚ) (x : α) :
    (s.put m priority).places x = s.places x + [m].count x := by
  have hcount := (s.queue.contents_enqueue m (priority.getD 1)).count_eq x
  simp only [places, put, hcount, List.count_cons, List.count_nil]
  omega

theorem places_finish (s : QueueState α) (caller : BatchCaller) (x : α) :
    (s.finish caller).places x = s.places x := by
  cases caller <;> rfl

omit [DecidableEq α] in
/-- A batch is the front of the queue. -/
theorem contents_takeBatch (size : ℕ) (q : PriorityQueue α) :
    q.contents = (takeBatch size q).1 ++ (takeBatch size q).2.contents := by
  induction size generalizing q with
  | zero => rfl
  | succ size ih =>
    rw [takeBatch]
    cases hq : q.dequeue with
    | none => rfl
    | some r =>
      obtain ⟨m, q'⟩ := r
      rw [PriorityQueue.contents_eq_of_dequeue hq, ih q']
      rfl

/-- Starting a batch moves messages from the queue into the batch. -/
theorem places_processBatch (s : QueueState α) (caller : BatchCaller) (x : α) :
    (s.processBatch caller).places x = s.places x := by
  have hsplit := congrArg (List.count x) (contents_takeBatch s.maxBatchSize.toNat s.queue)
  rw [List.count_append] at hsplit
  unfold processBatch
  split
  · next queue hbatch =>
    rw [hbatch] at hsplit
    rw [places_finish]
    simp only [places, hsplit, List.count_nil]
    omega
  · next m batch queue hbatch =>
    rw [hbatch] at hsplit
    simp only [places, hsplit, pendingCount_append, pendingCount_cons, Batch.pending]
    simp only [pendingCount, List.map_nil, List.sum_nil]
    omega

theorem places_tick (s : QueueState α) (x : α) : s.tick.places x = s.places x := by
  unfold tick
  split
  · rfl
  · rw [places_processBatch]
    rfl

theorem places_drain (s : QueueState α) (x : α) : s.drain.places x = s.places x := by
  unfold drain
  split
  · rfl
  · rw [places_processBatch]

/-- A successful send moves the message from the batch to the sent ones. -/
theorem places_sendNext {s : QueueState α} {i : ℕ} {b : Batch α} (h : s.inFlight[i]? = some b)
    (x : α) : (s.sendNext i b).places x = s.places x := by
  have hcurrent : b.pending.count x = [b.current].count x + b.later.count x := by
    simp only [Batch.pending, List.count_cons, List.count_nil]
    omega
  unfold sendNext
  cases hlater : b.later with
  | nil =>
    have herase := pendingCount_eraseIdx h x
    rw [hcurrent, hlater] at herase
    rw [places_finish]
    simp only [places, List.count_append, List.count_nil] at herase ⊢
    omega
  | cons next later =>
    have hset := pendingCount_set h ⟨b.delivered ++ [b.current], next, later, b.caller⟩ x
    rw [hcurrent, hlater] at hset
    simp only [places, List.count_append, Batch.pending] at hset ⊢
    omega

/-- Without the batch that failed, its waiting messages are missing. -/
theorem places_eraseIdx {s : QueueState α} {i : ℕ} {b : Batch α} (h : s.inFlight[i]? = some b)
    (x : α) : { s with inFlight := s.inFlight.eraseIdx i }.places x + b.pending.count x =
      s.places x := by
  have herase := pendingCount_eraseIdx h x
  simp only [places]
  omega

/-- No listener of `messageFailed` throws while messages of the batch remain. -/
def ReportsAll (listenerThrows : α → Bool) : List α → Prop
  | [] => True
  | m :: ms => (listenerThrows m = true → ms = []) ∧ ReportsAll listenerThrows ms

instance decidableReportsAll (listenerThrows : α → Bool) :
    ∀ ms, Decidable (ReportsAll listenerThrows ms)
  | [] => inferInstanceAs (Decidable True)
  | m :: ms =>
    have : Decidable (ReportsAll listenerThrows ms) := decidableReportsAll listenerThrows ms
    inferInstanceAs (Decidable ((listenerThrows m = true → ms = []) ∧ ReportsAll _ ms))

/-- Every message of a failed batch is put back or reported. -/
theorem places_handleSendError {listenerThrows : α → Bool} {ms : List α}
    (h : ReportsAll listenerThrows ms) (s : QueueState α) (x : α) :
    (handleSendError listenerThrows ms s).places x = s.places x + ms.count x := by
  induction ms generalizing s with
  | nil => rfl
  | cons m ms ih =>
    have hfailed : (s.handleFailedMessage m).places x = s.places x + [m].count x := by
      simp only [places, handleFailedMessage, List.map_append, List.count_append, List.map_cons,
        List.map_nil]
      omega
    have hcons : (m :: ms).count x = ms.count x + [m].count x := by
      simp [List.count_cons]
    simp only [handleSendError]
    split
    · rw [ih h.2, places_put, hcons]
      simp only [places]
      omega
    · split
      · next hthrows =>
        rw [h.1 hthrows, hfailed]
      · rw [ih h.2, hfailed, hcons]
        omega

/-! ## One step -/

/-- The message a user enqueues. -/
def arriving : QueueEvent α → List α
  | .enqueue m _ => [m]
  | _ => []

omit [DecidableEq α] in
theorem exists_enqueue_of_arriving {e : QueueEvent α} {m : α} {ms : List α}
    (h : arriving e = m :: ms) : ∃ priority, e = .enqueue m priority := by
  cases e with
  | enqueue m' priority =>
    cases h
    exact ⟨priority, rfl⟩
  | _ => cases h

/-- The messages that were sent and are put back because a later send of their batch fails. -/
def putBack (s : QueueState α) : QueueEvent α → List α
  | .settle i hasMsgType session _ =>
    match s.inFlight[i]?, processMessage hasMsgType session with
    | some b, .error _ => b.delivered
    | _, _ => []
  | _ => []

/-- Every message of a batch that fails in this step is put back or reported. -/
def ReportsStep (s : QueueState α) : QueueEvent α → Prop
  | .settle i _ _ listenerThrows => ∀ b ∈ s.inFlight[i]?, ReportsAll listenerThrows b.messages
  | _ => True

instance (s : QueueState α) : ∀ e, Decidable (s.ReportsStep e)
  | .settle i _ _ listenerThrows =>
    inferInstanceAs (Decidable (∀ b ∈ s.inFlight[i]?, ReportsAll listenerThrows b.messages))
  | .enqueue .. | .tick | .pause | .resume | .shutdown | .poll => inferInstanceAs (Decidable True)

/-- Only the queue, the retry counts and the reports change when a batch fails. -/
theorem handleSendError_eq (listenerThrows : α → Bool) (ms : List α) (s : QueueState α) :
    handleSendError listenerThrows ms s = { s with
      queue := (handleSendError listenerThrows ms s).queue
      retryCount := (handleSendError listenerThrows ms s).retryCount
      failed := (handleSendError listenerThrows ms s).failed } := by
  induction ms generalizing s with
  | nil => rfl
  | cons m ms ih =>
    simp only [handleSendError]
    split
    · exact ih _
    · split
      · rfl
      · exact ih _

theorem enqueued_handleSendError (listenerThrows : α → Bool) (ms : List α) (s : QueueState α) :
    (handleSendError listenerThrows ms s).enqueued = s.enqueued := by rw [handleSendError_eq]

omit [DecidableEq α] in
theorem enqueued_finish (s : QueueState α) (caller : BatchCaller) :
    (s.finish caller).enqueued = s.enqueued := by
  cases caller <;> rfl

omit [DecidableEq α] in
theorem enqueued_processBatch (s : QueueState α) (caller : BatchCaller) :
    (s.processBatch caller).enqueued = s.enqueued := by
  unfold processBatch
  split
  · rw [enqueued_finish]
  · rfl

omit [DecidableEq α] in
theorem enqueued_sendNext (s : QueueState α) (i : ℕ) (b : Batch α) :
    (s.sendNext i b).enqueued = s.enqueued := by
  unfold sendNext
  cases b.later with
  | nil => rw [enqueued_finish]
  | cons next later => rfl

/-- The end of a send: the batch goes on, or fails as a whole. -/
theorem settle_cases {s s' : QueueState α} {i : ℕ} {hasMsgType : Bool}
    {session : Option (Except JSString Unit)} {listenerThrows : α → Bool}
    (h : s.step (.settle i hasMsgType session listenerThrows) = some s') :
    ∃ b, s.inFlight[i]? = some b ∧
      ((processMessage hasMsgType session = .ok () ∧ s' = s.sendNext i b) ∨
        ∃ error, processMessage hasMsgType session = .error error ∧
          s' = (handleSendError listenerThrows b.messages
            { s with inFlight := s.inFlight.eraseIdx i }).finish b.caller) := by
  simp only [step] at h
  split at h
  · cases h
  · next b hb =>
    split at h
    · next hok => exact ⟨b, hb, Or.inl ⟨hok, (Option.some.inj h).symm⟩⟩
    · next error herror => exact ⟨b, hb, Or.inr ⟨error, herror, (Option.some.inj h).symm⟩⟩

omit [DecidableEq α] in
theorem enqueued_drain (s : QueueState α) : s.drain.enqueued = s.enqueued := by
  unfold drain
  split
  · rfl
  · rw [enqueued_processBatch]

theorem enqueued_step {s s' : QueueState α} {e : QueueEvent α} (h : s.step e = some s') :
    s'.enqueued = s.enqueued ++ arriving e := by
  cases e with
  | enqueue m priority =>
    obtain rfl := Option.some.inj h
    rfl
  | tick =>
    obtain rfl := Option.some.inj h
    simp only [arriving, List.append_nil, tick]
    split
    · rfl
    · rw [enqueued_processBatch]
  | settle i hasMsgType session listenerThrows =>
    obtain ⟨b, _, ⟨_, rfl⟩ | ⟨_, _, rfl⟩⟩ := settle_cases h
    · simp [arriving, enqueued_sendNext]
    · simp [arriving, enqueued_finish, enqueued_handleSendError]
  | pause | resume =>
    obtain rfl := Option.some.inj h
    simp [arriving]
  | shutdown =>
    simp only [step] at h
    split at h <;> obtain rfl := Option.some.inj h
    · simp [arriving]
    · simp [arriving, enqueued_drain]
  | poll =>
    simp only [step] at h
    split at h
    · cases h
    · split at h <;> obtain rfl := Option.some.inj h
      · simp [arriving]
      · simp [arriving, enqueued_drain]

/-- What a step does to the places of a message: it arrives, or it was sent and is
put back with its batch. -/
theorem places_step {s s' : QueueState α} {e : QueueEvent α} (h : s.step e = some s')
    (hreports : s.ReportsStep e) (x : α) :
    s'.places x = s.places x + (arriving e).count x + (s.putBack e).count x := by
  cases e with
  | enqueue m priority =>
    obtain rfl := Option.some.inj h
    exact places_put s m priority x
  | tick =>
    obtain rfl := Option.some.inj h
    exact places_tick s x
  | settle i hasMsgType session listenerThrows =>
    obtain ⟨b, hb, ⟨hok, rfl⟩ | ⟨error, herror, rfl⟩⟩ := settle_cases h
    · simp only [arriving, putBack, hb, hok, List.count_nil]
      exact places_sendNext hb x
    · have herase := places_eraseIdx hb x
      have hmessages : b.messages.count x = b.delivered.count x + b.pending.count x := by
        rw [Batch.messages, List.count_append]
        rfl
      rw [places_finish, places_handleSendError (hreports b hb), hmessages]
      simp only [arriving, putBack, hb, herror, List.count_nil]
      omega
  | pause | resume =>
    obtain rfl := Option.some.inj h
    rfl
  | shutdown =>
    simp only [step] at h
    split at h <;> obtain rfl := Option.some.inj h
    · rfl
    · exact places_drain _ x
  | poll =>
    simp only [step] at h
    split at h
    · cases h
    · split at h <;> obtain rfl := Option.some.inj h
      · rfl
      · exact places_drain _ x

end QueueState

/-! ## Runs -/

open QueueState

/-- Users enqueue each message once. -/
def DistinctMessages (s : QueueState α) (e : QueueEvent α) : Prop :=
  ∀ m ∈ arriving e, m ∉ s.enqueued

/-- No send fails behind a successful one of the same batch, and no listener keeps
a message of a failed batch from being put back or reported. -/
def FailsFirst (s : QueueState α) (e : QueueEvent α) : Prop := s.putBack e = [] ∧ s.ReportsStep e

instance (s : QueueState α) (e : QueueEvent α) : Decidable (DistinctMessages s e) :=
  inferInstanceAs (Decidable (∀ m ∈ arriving e, m ∉ s.enqueued))

instance (s : QueueState α) (e : QueueEvent α) : Decidable (FailsFirst s e) :=
  inferInstanceAs (Decidable (s.putBack e = [] ∧ s.ReportsStep e))

/-- A message is in one of three conditions: queued and never sent, sent once, or
reported once as failed. -/
def InOneCondition (s : QueueState α) (x : α) : Prop :=
  (s.queue.contents.count x = 1 ∧ s.sent.count x = 0 ∧
      (s.failed.map FailedMessage.message).count x = 0) ∨
    (s.queue.contents.count x = 0 ∧ s.sent.count x = 1 ∧
      (s.failed.map FailedMessage.message).count x = 0) ∨
    (s.queue.contents.count x = 0 ∧ s.sent.count x = 0 ∧
      (s.failed.map FailedMessage.message).count x = 1)

instance (s : QueueState α) (x : α) : Decidable (InOneCondition s x) :=
  inferInstanceAs (Decidable (_ ∧ _ ∧ _ ∨ _ ∧ _ ∧ _ ∨ _ ∧ _ ∧ _))

/-- With distinct messages, every enqueued message counts once. -/
theorem nodup_enqueued :
    System.Invariant (messageQueue α) DistinctMessages fun s => s.enqueued.Nodup where
  init := by
    rintro s ⟨config, retryCount, rfl⟩
    exact List.nodup_nil
  step := by
    intro s e s' hnodup hdistinct hstep
    rw [enqueued_step hstep, List.nodup_append]
    refine ⟨hnodup, ?_, fun a ha b hb heq => hdistinct b hb (heq ▸ ha)⟩
    cases e <;> simp [arriving]

/-- No message is lost: each is queued, in a batch, sent or reported, as long as
no listener interrupts the treatment of a failed batch. -/
theorem count_enqueued_le_places (x : α) :
    System.Invariant (messageQueue α) ReportsStep fun s => s.enqueued.count x ≤ s.places x where
  init := by
    rintro s ⟨config, retryCount, rfl⟩
    exact Nat.zero_le _
  step := by
    intro s e s' hle hreports hstep
    rw [places_step hstep hreports, enqueued_step hstep, List.count_append]
    omega

/-- If no send fails behind a successful one, each message has exactly one place. -/
theorem places_eq_count_enqueued (x : α) :
    System.Invariant (messageQueue α) FailsFirst fun s => s.places x = s.enqueued.count x where
  init := by
    rintro s ⟨config, retryCount, rfl⟩
    rfl
  step := by
    rintro s e s' heq ⟨hputBack, hreports⟩ hstep
    rw [places_step hstep hreports, enqueued_step hstep, hputBack, List.count_append, heq]
    rfl

/-- In every run in which no send fails behind a successful one of its batch, every
enqueued message is in one condition whenever no batch is under way. -/
theorem inOneCondition_of_reached {s : QueueState α}
    (h : System.Reached (messageQueue α) (fun s e => DistinctMessages s e ∧ FailsFirst s e) s)
    (hidle : s.inFlight = []) {x : α} (hx : x ∈ s.enqueued) : InOneCondition s x := by
  have hnodup := nodup_enqueued.of_reached (h.mono fun _ _ hguard => hguard.1)
  have hplaces := (places_eq_count_enqueued x).of_reached (h.mono fun _ _ hguard => hguard.2)
  have hone : s.enqueued.count x = 1 := List.count_eq_one_of_mem hnodup hx
  have hpending : pendingCount s.inFlight x = 0 := by rw [hidle]; rfl
  rw [hone, places, hpending] at hplaces
  unfold InOneCondition
  omega

/-- A queue with default options, two messages, and their batch. -/
def twoMessages : List (QueueEvent ℕ) := [.enqueue 0 none, .enqueue 1 none, .tick]

/-- The end of a send in the oldest batch. -/
def settleFirst (answer : Except JSString Unit) : QueueEvent ℕ :=
  .settle 0 true (some answer) fun _ => false

/-- The state after a list of events on a new queue. -/
def queueAfter (events : List (QueueEvent ℕ)) : QueueState ℕ :=
  ((messageQueue ℕ).exec (newMessageQueue ⟨none, none⟩ fun _ => none) events).getD
    (newMessageQueue ⟨none, none⟩ fun _ => none)

theorem reached_queueAfter {guard : QueueState ℕ → QueueEvent ℕ → Prop}
    {events : List (QueueEvent ℕ)}
    (hguard : (messageQueue ℕ).Guarded guard (newMessageQueue ⟨none, none⟩ fun _ => none) events)
    (hexec : ((messageQueue ℕ).exec (newMessageQueue ⟨none, none⟩ fun _ => none) events).isSome) :
    System.Reached (messageQueue ℕ) guard (queueAfter events) := by
  obtain ⟨s, hs⟩ := Option.isSome_iff_exists.mp hexec
  have hafter : queueAfter events = s := by rw [queueAfter, hs]; rfl
  rw [hafter]
  exact System.Reached.exec (.init ⟨_, _, rfl⟩) hguard hs

/-- The first send of a batch fails: both messages are queued again. -/
theorem inOneCondition_queueAfter :
    InOneCondition (queueAfter (twoMessages ++ [settleFirst (.error [])])) 0 :=
  inOneCondition_of_reached (reached_queueAfter (by decide +kernel) (by decide +kernel))
    (by decide +kernel) (by decide +kernel)

/-- The second send of a batch fails, and the next batch succeeds. -/
def resentBatch : List (QueueEvent ℕ) :=
  twoMessages ++ [settleFirst (.ok ()), settleFirst (.error []), .tick, settleFirst (.ok ()),
    settleFirst (.ok ())]

/-- The message sent before the failure is sent twice. -/
theorem not_inOneCondition_resentBatch :
    System.Reached (messageQueue ℕ) DistinctMessages (queueAfter resentBatch) ∧
      (queueAfter resentBatch).inFlight = [] ∧ 0 ∈ (queueAfter resentBatch).enqueued ∧
      (queueAfter resentBatch).sent = [0, 0, 1] ∧ ¬ InOneCondition (queueAfter resentBatch) 0 :=
  ⟨reached_queueAfter (by decide +kernel) (by decide +kernel),
    List.eq_nil_of_length_eq_zero (by decide +kernel), by decide +kernel, by decide +kernel,
    by decide +kernel⟩

end NestQuickfix
