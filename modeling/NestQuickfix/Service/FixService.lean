import NestQuickfix.Acceptor.System

/-!
# The service that sends to rooms

`FixService` is one object for all its callers. `to` stores a room in it, `send` reads that
room when it begins and clears it when its writes have been reported. It uses the sessions
and the rooms of the acceptor.
-/

namespace NestQuickfix

open Lib

/-- `clone`. -/
def Message.clone (m : Message) : Message := empty.setFields m.fields.entries

namespace Service

open Acceptor

/-- The service, with the acceptor whose sessions it uses. -/
structure FixService where
  acceptor : AcceptorState
  targetId : Option JSString
  /-- The number of calls of `send` that wait for their writes. -/
  sending : ℕ
  /-- The calls of `sendMessage`: the sessions and the messages passed to them. -/
  sent : List (ℕ × Message)

/-- Service code. -/
abbrev ServiceM := Exec JSError FixService

/-- The session manager's sessions whose ids a room lists. -/
def FixService.sessionsInRoom (st : FixService) (roomId : JSString) : List ℕ :=
  (st.acceptor.rooms.getSessionsInRoom roomId).filterMap st.acceptor.registry.get?

/-- The message that a session gets for a message of a caller. -/
def FixService.addressed (st : FixService) (message : Message) (s : ℕ) : Message :=
  message.clone.setField Fields.targetCompID (st.acceptor.sessions s).config.targetCompId

/-- Whether `send` finds a target: it is set, and it is not the empty string. -/
def FixService.target (st : FixService) : Option JSString :=
  st.targetId.filter fun targetId => targetId ≠ []

/-- `to`. -/
def FixService.to (targetId : JSString) : ServiceM Unit :=
  modify fun st => { st with targetId := some targetId }

/-- Pass a message to `sendMessage` of a session, up to its `await`. -/
def deliver (message : Message) (s : ℕ) : ServiceM Unit :=
  modify fun st => { st with
    acceptor := (startSend s (st.addressed message s)).after st.acceptor
    sent := st.sent ++ [(s, st.addressed message s)] }

/-- `send` up to its `await`; when the room is empty, to its end. -/
def FixService.send (message : Message) : ServiceM Unit := do
  let st ← get
  match st.target with
  | none => throw (js "Target ID must be specified using to() method")
  | some targetId =>
    if st.acceptor.rooms.getSessionsInRoom targetId = [] then
      modify fun st => { st with targetId := none }
    else do
      Exec.forEach (st.sessionsInRoom targetId) (deliver message)
      modify fun st => { st with sending := st.sending + 1 }

/-- The `finally` of a `send` that has waited for its writes. -/
def settle : ServiceM Unit :=
  modify fun st => { st with targetId := none, sending := st.sending - 1 }

/-- What happens to the service. -/
inductive Call where
  /-- A step of the acceptor. -/
  | acceptor (e : Step)
  | toTarget (caller : ℕ) (targetId : JSString)
  | send (caller : ℕ) (message : Message) (input : Input)
  /-- The writes of a `send` have been reported, or one of them has failed. -/
  | settled

/-- Whether a call can happen. -/
def FixService.enabled (st : FixService) : Call → Bool
  | .acceptor e => st.acceptor.enabled e.event
  | .toTarget .. | .send .. => st.acceptor.closing.isNone
  | .settled => st.acceptor.closing.isNone && decide (0 < st.sending)

/-- The state in which a call begins. -/
def FixService.meets (st : FixService) (input : Input) : FixService :=
  { st with acceptor := { st.acceptor with input := input } }

/-- What a call does. -/
def FixService.perform (st : FixService) : Call → FixService
  | .acceptor e => { st with
    acceptor := (Acceptor.perform e.event).after { st.acceptor with input := e.input } }
  | .toTarget _ targetId => (FixService.to targetId).after st
  | .send _ message input => (FixService.send message).after (st.meets input)
  | .settled => settle.after st

/-- The service with its callers as a system. -/
def service : System FixService Call where
  init st := ∃ config, st = ⟨.new config, none, 0, []⟩
  step st e := if st.enabled e then some (st.perform e) else none

end Service

end NestQuickfix
