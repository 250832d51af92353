import NestQuickfix.Acceptor.State
import NestQuickfix.Flow.Retries
import NestQuickfix.Lib.Refinement
import NestQuickfix.Session.FailedSends

/-!
# The message queue and its sessions

A message of the queue goes to the session registered under its own CompIDs. That session
completes the message object itself, so a message that is put back keeps what the first
attempt has added to it. Other code sends through the same sessions, and sessions come and
go while messages wait.
-/

namespace NestQuickfix

open Lib

/-! ## Sessions -/

/-- A text handed to a socket: the session that wrote it, the message object, what was
encoded, and whether it was the queue that called the session. -/
structure WrittenText where
  session : ℕ
  message : ℕ
  written : Message
  text : JSString
  queued : Bool

/-- The message objects, and the sessions that send them. -/
structure SendingSessions where
  messages : ℕ → Message
  /-- The sessions of the session manager. -/
  registry : OrderedMap JSString ℕ
  nextOutgoingSeqNum : ℕ → ℕ
  /-- The calls of `sendMessage`: the session and the message object, in order. -/
  sends : List (ℕ × ℕ)
  /-- What was handed to the sockets, in order. -/
  writes : List WrittenText

namespace SendingSessions

/-- Before any message or session is created; every session will count from one. -/
def new : SendingSessions where
  messages := fun _ => .empty
  registry := .empty
  nextOutgoingSeqNum := fun _ => 1
  sends := []
  writes := []

variable (configs : ℕ → SessionConfig)

/-- `sendMessage` of session `x`, and how its promise settles. -/
def sendThrough (t : SendingSessions) (x ref : ℕ) (queued : Bool) (env : SendEnv) :
    SendingSessions × Except JSError Unit :=
  let attempt := sendMessage (configs x) (t.nextOutgoingSeqNum x) env (t.messages ref)
  ({ t with
      messages := Function.update t.messages ref attempt.message
      nextOutgoingSeqNum :=
        Function.update t.nextOutgoingSeqNum x (t.nextOutgoingSeqNum x + 1)
      sends := t.sends ++ [(x, ref)]
      writes := t.writes ++
        (attempt.written.map fun w => ⟨x, ref, w.1, w.2, queued⟩).toList },
    attempt.result)

/-- The session manager stores session `x` under its id. -/
def register (t : SendingSessions) (x : ℕ) : SendingSessions :=
  let id := Acceptor.sessionKey (configs x).senderCompId (configs x).targetCompId
  { t with registry := t.registry.set id x }

/-- A user creates or changes a message object. -/
def assign (t : SendingSessions) (ref : ℕ) (message : Message) : SendingSessions :=
  { t with messages := Function.update t.messages ref message }

end SendingSessions

/-! ## The queue -/

/-- How the send of the current message of a batch ends. -/
structure SendOutcome where
  hasMsgType : Bool
  session : Option (Except JSError Unit)

/-- A message queue and its sessions. -/
structure SendingState where
  queue : AttemptLog ℕ
  /-- One outcome for each batch under way. -/
  outcomes : List SendOutcome
  /-- Whether the queue was given a session manager. -/
  sessionManager : Bool
  sessions : SendingSessions

/-- What happens to a message queue and its sessions. Where a send of the queue may start,
the event says what it meets. -/
inductive SendingEvent where
  | enqueue (ref : ℕ) (priority : Option ℚ)
  | tick (env : SendEnv)
  /-- The send in batch `i` ends, and the next one of the batch starts. -/
  | settle (i : ℕ) (listenerThrows : ℕ → Bool) (env : SendEnv)
  | pause
  | resume
  | shutdown (env : SendEnv)
  | poll (env : SendEnv)
  | register (x : ℕ)
  | remove (id : JSString)
  | assign (ref : ℕ) (message : Message)
  /-- Other code calls `sendMessage` of session `x`: a user, or the session itself. -/
  | send (x ref : ℕ) (env : SendEnv)

namespace SendingState

variable (configs : ℕ → SessionConfig)

/-- `getSession` of the queue. -/
def getSession (s : SendingState) (message : Message) : Option ℕ :=
  if s.sessionManager then
    s.sessions.registry.get? (Acceptor.sessionKey (message.getField Fields.senderCompID)
      (message.getField Fields.targetCompID))
  else none

/-- `processMessage` as far as the socket: `validateMessage`, then `sendToSession`. -/
def startSend (s : SendingState) (ref : ℕ) (env : SendEnv) : SendingSessions × SendOutcome :=
  if !(s.sessions.messages ref).hasField Fields.msgType then (s.sessions, ⟨false, none⟩)
  else match s.getSession (s.sessions.messages ref) with
    | none => (s.sessions, ⟨true, none⟩)
    | some x =>
      let (sessions, result) := s.sessions.sendThrough configs x ref true env
      (sessions, ⟨true, some result⟩)

/-- An event of the queue, and the send that starts in it, if one does. -/
def advance (s : SendingState) (e : QueueEvent ℕ) (env : SendEnv)
    (place : List SendOutcome → Option SendOutcome → List SendOutcome) : Option SendingState :=
  (s.queue.step e).map fun queue =>
    match s.queue.queue.started e with
    | [] => { s with queue := queue, outcomes := place s.outcomes none }
    | ref :: _ =>
      let (sessions, outcome) := s.startSend configs ref env
      { s with queue := queue, outcomes := place s.outcomes outcome, sessions := sessions }

/-- A new batch comes last. -/
def placeLast (outcomes : List SendOutcome) (outcome : Option SendOutcome) : List SendOutcome :=
  outcomes ++ outcome.toList

/-- Batch `i` goes on with its next send, or ends. -/
def placeAt (i : ℕ) (outcomes : List SendOutcome) : Option SendOutcome → List SendOutcome
  | some outcome => outcomes.set i outcome
  | none => outcomes.eraseIdx i

/-- What an event is to the queue: a send ends as its outcome says. -/
def queueEvent (s : SendingState) : SendingEvent → Option (QueueEvent ℕ)
  | .enqueue ref priority => some (.enqueue ref priority)
  | .tick _ => some .tick
  | .settle i listenerThrows _ =>
    s.outcomes[i]?.map fun o => .settle i o.hasMsgType o.session listenerThrows
  | .pause => some .pause
  | .resume => some .resume
  | .shutdown _ => some .shutdown
  | .poll _ => some .poll
  | .register _ | .remove _ | .assign _ _ | .send _ _ _ => none

/-- An event after which no send starts. -/
def only (s : SendingState) (e : QueueEvent ℕ) : Option SendingState :=
  (s.queue.step e).map fun queue => { s with queue := queue }

/-- One event. -/
def step (s : SendingState) : SendingEvent → Option SendingState
  | .enqueue ref priority => s.only (.enqueue ref priority)
  | .tick env => s.advance configs .tick env placeLast
  | .settle i listenerThrows env =>
    match s.outcomes[i]? with
    | none => none
    | some o =>
      s.advance configs (.settle i o.hasMsgType o.session listenerThrows) env (placeAt i)
  | .pause => s.only .pause
  | .resume => s.only .resume
  | .shutdown env => s.advance configs .shutdown env placeLast
  | .poll env => s.advance configs .poll env placeLast
  | .register x => some { s with sessions := s.sessions.register configs x }
  | .remove id =>
    some { s with sessions := { s.sessions with registry := s.sessions.registry.erase id } }
  | .assign ref message => some { s with sessions := s.sessions.assign ref message }
  | .send x ref env =>
    some { s with sessions := (s.sessions.sendThrough configs x ref false env).1 }

end SendingState

/-- The message queue and its sessions as a system. -/
def sendingQueue (options : MessageQueueConfig) (configs : ℕ → SessionConfig) :
    System SendingState SendingEvent where
  init s := ∃ retryCount sessionManager,
    s = ⟨⟨newMessageQueue options retryCount, [], []⟩, [], sessionManager, .new⟩
  step := SendingState.step configs

namespace SendingState

variable {options : MessageQueueConfig} {configs : ℕ → SessionConfig} {s s' : SendingState}
  {e : SendingEvent}

/-! ## Steps -/

/-- What a step does to the sessions: a call of `sendMessage`, a change of the registry or of
a message object, or nothing. The queue calls the session of the message. -/
inductive Sends (configs : ℕ → SessionConfig) (s : SendingState) (e : SendingEvent) :
    SendingSessions → Prop
  | nothing : Sends configs s e s.sessions
  | queued {d : QueueEvent ℕ} {ref x : ℕ} (env : SendEnv) : s.queueEvent e = some d →
      ref ∈ s.queue.queue.started d → s.getSession (s.sessions.messages ref) = some x →
      Sends configs s e (s.sessions.sendThrough configs x ref true env).1
  | other {x ref : ℕ} {env : SendEnv} : e = .send x ref env →
      Sends configs s e (s.sessions.sendThrough configs x ref false env).1
  | register {x : ℕ} : e = .register x → Sends configs s e (s.sessions.register configs x)
  | remove {id : JSString} : e = .remove id →
      Sends configs s e { s.sessions with registry := s.sessions.registry.erase id }
  | assign {ref : ℕ} {message : Message} : e = .assign ref message →
      Sends configs s e (s.sessions.assign ref message)

/-- The send of a message by the queue ends before the session, or it goes through the
session of the message. -/
theorem startSend_cases (s : SendingState) (ref : ℕ) (env : SendEnv) :
    (s.startSend configs ref env).1 = s.sessions ∨
      ∃ x, s.getSession (s.sessions.messages ref) = some x ∧
        (s.startSend configs ref env).1 = (s.sessions.sendThrough configs x ref true env).1 := by
  unfold startSend
  split
  · exact Or.inl rfl
  · cases hsession : s.getSession (s.sessions.messages ref) with
    | none => exact Or.inl rfl
    | some x => exact Or.inr ⟨x, rfl, rfl⟩

/-- What a step does: to the queue, what the event is to it, and to the sessions one of the
things listed above. -/
structure Does (configs : ℕ → SessionConfig) (s : SendingState) (e : SendingEvent)
    (s' : SendingState) : Prop where
  queue : ∀ d, s.queueEvent e = some d → s.queue.step d = some s'.queue
  unseen : s.queueEvent e = none → s'.queue = s.queue
  sessionManager : s'.sessionManager = s.sessionManager
  sessions : Sends configs s e s'.sessions

/-- An event that the queue does not see changes the sessions only. -/
theorem Does.of_sends {t : SendingSessions} (hevent : s.queueEvent e = none)
    (h : Sends configs s e t) : Does configs s e { s with sessions := t } where
  queue d hd := by
    rw [hevent] at hd
    cases hd
  unseen _ := rfl
  sessionManager := rfl
  sessions := h

theorem Does.of_queue {d : QueueEvent ℕ} (hevent : s.queueEvent e = some d)
    (hqueue : s.queue.step d = some s'.queue) (hmanager : s'.sessionManager = s.sessionManager)
    (h : Sends configs s e s'.sessions) : Does configs s e s' where
  queue d' hd' := by rwa [← Option.some.inj (hevent.symm.trans hd')]
  unseen hnone := by
    rw [hevent] at hnone
    cases hnone
  sessionManager := hmanager
  sessions := h

theorem does_of_only {d : QueueEvent ℕ} (hevent : s.queueEvent e = some d)
    (h : s.only d = some s') : Does configs s e s' := by
  obtain ⟨queue, hqueue, rfl⟩ := Option.map_eq_some_iff.mp h
  exact .of_queue hevent hqueue rfl .nothing

theorem does_of_advance {d : QueueEvent ℕ} {env : SendEnv}
    {place : List SendOutcome → Option SendOutcome → List SendOutcome}
    (hevent : s.queueEvent e = some d) (h : s.advance configs d env place = some s') :
    Does configs s e s' := by
  obtain ⟨queue, hqueue, rfl⟩ := Option.map_eq_some_iff.mp h
  cases hstarted : s.queue.queue.started d with
  | nil => exact .of_queue hevent hqueue rfl .nothing
  | cons ref rest =>
    have hmem : ref ∈ s.queue.queue.started d := hstarted ▸ List.mem_cons_self
    refine .of_queue hevent hqueue rfl ?_
    dsimp only
    rcases startSend_cases s ref env with hnothing | ⟨x, hx, hsent⟩
    · rw [hnothing]
      exact .nothing
    · rw [hsent]
      exact .queued env hevent hmem hx

theorem does_of_step (h : s.step configs e = some s') : Does configs s e s' := by
  cases e with
  | enqueue ref priority => exact does_of_only rfl h
  | tick env => exact does_of_advance rfl h
  | settle i listenerThrows env =>
    simp only [step] at h
    cases houtcome : s.outcomes[i]? with
    | none =>
      rw [houtcome] at h
      cases h
    | some o =>
      rw [houtcome] at h
      have hevent : s.queueEvent (.settle i listenerThrows env) =
          some (.settle i o.hasMsgType o.session listenerThrows) := by
        simp only [queueEvent, houtcome, Option.map_some]
      exact does_of_advance hevent h
  | pause => exact does_of_only rfl h
  | resume => exact does_of_only rfl h
  | shutdown env => exact does_of_advance rfl h
  | poll env => exact does_of_advance rfl h
  | register x =>
    obtain rfl := Option.some.inj h
    exact .of_sends rfl (.register rfl)
  | remove id =>
    obtain rfl := Option.some.inj h
    exact .of_sends rfl (.remove rfl)
  | assign ref message =>
    obtain rfl := Option.some.inj h
    exact .of_sends rfl (.assign rfl)
  | send x ref env =>
    obtain rfl := Option.some.inj h
    exact .of_sends rfl (.other rfl)

/-- Seen without its sessions, the queue runs as one whose sends end in any way. -/
theorem refines {n : ℕ} (hn : options.maxRetries = some (n : ℤ)) :
    System.Refines (sendingQueue options configs) (watchedQueue ℕ n) queue queueEvent where
  init := by
    rintro s ⟨retryCount, sessionManager, rfl⟩
    exact ⟨options, retryCount, hn, rfl⟩
  step s e s' d hevent hstep := (does_of_step hstep).queue d hevent
  unseen s e s' hevent hstep := (does_of_step hstep).unseen hevent

end SendingState

end NestQuickfix
