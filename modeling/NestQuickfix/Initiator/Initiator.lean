import NestQuickfix.Session.Outgoing

/-!
# The initiator

`FIXInitiator` has one session, which is configured with the CompIDs of the initiator. All it
sends goes through `sendMessage` of this session.
-/

namespace NestQuickfix.Initiator

open Lib

/-- The configuration of an initiator. -/
structure InitiatorConfig where
  senderCompID : JSString
  targetCompID : JSString
  heartBtInt : Number
  beginString : Value

/-- The configuration that `setupSession` gives to the session. -/
def setupSession (config : InitiatorConfig) : SessionConfig where
  senderCompId := .str config.senderCompID
  targetCompId := .str config.targetCompID
  heartbeatInterval := config.heartBtInt
  beginString := config.beginString

/-- What is sent through the session of an initiator. -/
inductive Outgoing where
  /-- `logon`, or the response to a Logon. -/
  | logon (resetSeqNum : Bool)
  /-- The heartbeat of the timer, or the response to a TestRequest. -/
  | heartbeat (testReqID : Value)
  | logout (reason : Value)
  /-- `sendMessage` of the initiator. -/
  | user (message : Message)

/-- The message passed to `sendMessage` of the session. -/
def Outgoing.message (config : InitiatorConfig) : Outgoing → Message
  | .logon resetSeqNum => logonMessage config.heartBtInt (.int 0) resetSeqNum
  | .heartbeat testReqID => heartbeatMessage testReqID
  | .logout reason => logoutMessage reason
  | .user message => message

/-- The message has no CompIDs before it is sent. -/
def Outgoing.Unaddressed : Outgoing → Prop
  | .user message => message.hasField Fields.senderCompID = false ∧
      message.hasField Fields.targetCompID = false
  | _ => True

/-- The messages of the session itself have no CompIDs either. -/
theorem Outgoing.Unaddressed.hasField {o : Outgoing} (h : o.Unaddressed) (config : InitiatorConfig) :
    (o.message config).hasField Fields.senderCompID = false ∧
      (o.message config).hasField Fields.targetCompID = false := by
  cases o with
  | logon resetSeqNum =>
    dsimp only [Outgoing.message, logonMessage]
    split <;> simp only [Message.setFields, List.foldl_cons, List.foldl_nil,
      Message.hasField_setField] <;> decide
  | heartbeat testReqID =>
    dsimp only [Outgoing.message, heartbeatMessage]
    split <;> simp only [Message.setFields, List.foldl_cons, List.foldl_nil,
      Message.hasField_setField] <;> decide
  | logout reason =>
    dsimp only [Outgoing.message, logoutMessage]
    split <;> simp only [Message.setFields, List.foldl_cons, List.foldl_nil,
      Message.hasField_setField] <;> decide
  | user message => exact h

end NestQuickfix.Initiator
