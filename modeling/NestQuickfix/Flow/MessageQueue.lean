import NestQuickfix.Flow.PriorityQueue
import NestQuickfix.Lib.Run
import NestQuickfix.Message.Text

/-!
# The message queue

`MessageQueue` sends queued messages in batches. A timer takes a batch when no
timer batch is being processed; `shutdown` takes one more without looking at that
flag again, so several batches can be under way. The sends of a batch happen one
after the other, each waiting for the one before. When one fails, the whole batch
goes to `handleSendError`, the messages already sent included.

A message is known by its identity, which carries its retry counter. The state
also records which messages were enqueued and sent, and what was reported as failed.
-/

namespace NestQuickfix

open Lib

/-- The options of the constructor. -/
structure MessageQueueConfig where
  maxBatchSize : Option ℤ
  maxRetries : Option ℤ

/-- `value || default`: zero is replaced too. -/
def orDefault (value : Option ℤ) (default : ℤ) : ℤ :=
  if value.getD 0 = 0 then default else value.getD 0

/-- What `messageFailed` reports. -/
structure FailedMessage (α : Type*) where
  message : α
  retryCount : Option ℤ
  error : JSString

/-- Who started a batch: a timer, which ends the processing flag, or `shutdown`. -/
inductive BatchCaller where
  | timer
  | shutdown
  deriving DecidableEq

/-- A batch under way: the messages already sent, the one being sent, and the rest. -/
structure Batch (α : Type*) where
  delivered : List α
  current : α
  later : List α
  caller : BatchCaller

/-- All messages of a batch. -/
def Batch.messages {α : Type*} (b : Batch α) : List α := b.delivered ++ b.current :: b.later

/-- The state of a message queue. -/
structure QueueState (α : Type*) where
  maxBatchSize : ℤ
  maxRetries : ℤ
  queue : PriorityQueue α
  processing : Bool
  paused : Bool
  /-- The `retryCount` property of the messages. -/
  retryCount : α → Option ℤ
  /-- The batches under way. -/
  inFlight : List (Batch α)
  /-- The calls of `shutdown` that wait for the processing flag. -/
  waiting : ℕ
  /-- The messages passed to `enqueue` by users, in order. -/
  enqueued : List α
  /-- The messages whose send succeeded, in order. -/
  sent : List α
  /-- The reports of `messageFailed`, in order. -/
  failed : List (FailedMessage α)

/-- What happens to a message queue. -/
inductive QueueEvent (α : Type*) where
  /-- A user enqueues a message. -/
  | enqueue (message : α) (priority : Option ℚ)
  /-- A processing timer fires. -/
  | tick
  /-- The send in batch `i` ends: whether the message has a MsgType, what the session
  answered if there is one, and for which reports a listener throws. -/
  | settle (i : ℕ) (hasMsgType : Bool) (session : Option (Except JSString Unit))
      (listenerThrows : α → Bool)
  | pause
  | resume
  | shutdown
  /-- A waiting `shutdown` looks at the processing flag again. -/
  | poll

variable {α : Type*}

/-- The state after the constructor. -/
def newMessageQueue (config : MessageQueueConfig) (retryCount : α → Option ℤ) : QueueState α where
  maxBatchSize := orDefault config.maxBatchSize 100
  maxRetries := orDefault config.maxRetries 3
  queue := .empty
  processing := false
  paused := false
  retryCount := retryCount
  inFlight := []
  waiting := 0
  enqueued := []
  sent := []
  failed := []

/-- `processMessage`: validate, look up the session, send. -/
def processMessage (hasMsgType : Bool) (session : Option (Except JSString Unit)) :
    Except JSString Unit :=
  if !hasMsgType then .error (js "Missing MsgType field")
  else match session with
    | none => .error (js "No session available")
    | some answer => answer

/-- Take messages until the queue is empty or the batch is full. -/
def takeBatch : ℕ → PriorityQueue α → List α × PriorityQueue α
  | 0, queue => ([], queue)
  | size + 1, queue =>
    match queue.dequeue with
    | none => ([], queue)
    | some (message, queue) =>
      let (batch, queue) := takeBatch size queue
      (message :: batch, queue)

namespace QueueState

/-- `enqueue` of the queue itself; `calculatePriority` returns the given priority. -/
def put (s : QueueState α) (message : α) (priority : Option ℚ) : QueueState α :=
  { s with queue := s.queue.enqueue message (priority.getD 1) }

/-- The `finally` of a timer batch. -/
def finish (s : QueueState α) (caller : BatchCaller) : QueueState α :=
  match caller with
  | .timer => { s with processing := false }
  | .shutdown => s

/-- Take a batch and start its first send. -/
def processBatch (s : QueueState α) (caller : BatchCaller) : QueueState α :=
  match takeBatch s.maxBatchSize.toNat s.queue with
  | ([], queue) => { s with queue := queue }.finish caller
  | (message :: batch, queue) =>
    { s with queue := queue, inFlight := s.inFlight ++ [⟨[], message, batch, caller⟩] }

/-- A processing timer. -/
def tick (s : QueueState α) : QueueState α :=
  if s.paused || s.processing || s.queue.isEmpty then s
  else { s with processing := true }.processBatch .timer

/-- The message of batch `i` was sent: go on with the next one. -/
def sendNext (s : QueueState α) (i : ℕ) (b : Batch α) : QueueState α :=
  let s := { s with sent := s.sent ++ [b.current] }
  match b.later with
  | [] => { s with inFlight := s.inFlight.eraseIdx i }.finish b.caller
  | next :: later =>
    { s with inFlight := s.inFlight.set i ⟨b.delivered ++ [b.current], next, later, b.caller⟩ }

variable [DecidableEq α]

/-- Report a message as failed. -/
def handleFailedMessage (s : QueueState α) (message : α) : QueueState α :=
  { s with failed := s.failed ++
      [⟨message, s.retryCount message, js "Max retries exceeded"⟩] }

/-- Put the messages of a failed batch back, or report them when they were put
back too often. A throwing listener ends the loop. -/
def handleSendError (listenerThrows : α → Bool) : List α → QueueState α → QueueState α
  | [], s => s
  | message :: messages, s =>
    let retryCount := (s.retryCount message).getD 0
    if retryCount ≤ s.maxRetries then
      let s := { s with retryCount := Function.update s.retryCount message (some (retryCount + 1)) }
      handleSendError listenerThrows messages (s.put message (some (retryCount + 1)))
    else if listenerThrows message then s.handleFailedMessage message
    else handleSendError listenerThrows messages (s.handleFailedMessage message)

/-- The last part of `shutdown`. -/
def drain (s : QueueState α) : QueueState α :=
  if s.queue.isEmpty then s else s.processBatch .shutdown

/-- One event. -/
def step (s : QueueState α) : QueueEvent α → Option (QueueState α)
  | .enqueue message priority =>
    some { s.put message priority with enqueued := s.enqueued ++ [message] }
  | .tick => some s.tick
  | .settle i hasMsgType session listenerThrows =>
    match s.inFlight[i]? with
    | none => none
    | some b =>
      match processMessage hasMsgType session with
      | .ok () => some (s.sendNext i b)
      | .error _ =>
        some ((handleSendError listenerThrows b.messages
          { s with inFlight := s.inFlight.eraseIdx i }).finish b.caller)
  | .pause => some { s with paused := true }
  | .resume => some { s with paused := false }
  | .shutdown =>
    if s.processing then some { s with paused := true, waiting := s.waiting + 1 }
    else some { s with paused := true }.drain
  | .poll =>
    if s.waiting = 0 then none
    else if s.processing then some s
    else some { s with waiting := s.waiting - 1 }.drain

end QueueState

/-- The message queue as a system. -/
def messageQueue (α : Type*) [DecidableEq α] : System (QueueState α) (QueueEvent α) where
  init s := ∃ config retryCount, s = newMessageQueue config retryCount
  step := QueueState.step

end NestQuickfix
