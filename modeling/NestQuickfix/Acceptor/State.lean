import Mathlib.Logic.Function.Basic
import NestQuickfix.Lib.Exec
import NestQuickfix.Session.Outgoing
import NestQuickfix.Session.Rooms

/-!
# The state of an acceptor

The acceptor, its session manager and its sessions run on one event loop. Their
code is cut at every `await`: what is left to do after it is a suspended task.
Sockets and sessions are known by numbers, given in the order of their creation.
-/

namespace NestQuickfix.Acceptor

open Lib

/-! ## Sessions and sockets -/

/-- The states of a session. -/
inductive SessionState where
  | disconnected
  | connected
  | loggingOn
  | loggedOn
  | loggingOut
  | error
  | resending
  deriving DecidableEq

/-- The events a session emits. -/
inductive SessionEvent where
  | loggedOn
  | loggingOut
  | loggedOut
  | disconnect
  deriving DecidableEq

/-- The handler sets of a session whose handlers are called without waiting. -/
inductive HandlerKind where
  | logon
  | logout
  | connected
  | disconnected
  deriving DecidableEq

/-- A handler for messages, for one type or, without a type, for all. -/
structure MessageHandler where
  handler : ℕ
  msgType : Value

/-- The decorated methods of the application; handlers are known by numbers. -/
structure FixMetadata where
  onLogon : Option ℕ
  onLogout : Option ℕ
  onConnected : Option ℕ
  onDisconnected : Option ℕ
  onMessage : Option MessageHandler

/-- The handler sets of a session. -/
structure Handlers where
  simple : HandlerKind → List ℕ
  message : List MessageHandler

/-- A session. -/
structure Session where
  config : SessionConfig
  socket : ℕ
  state : SessionState
  /-- Whether the heartbeat interval is running. -/
  heartbeatTimer : Bool
  nextOutgoingSeqNum : ℕ
  handlers : Handlers

/-- The key `senderCompId->targetCompId`. -/
def sessionKey (senderCompId targetCompId : Value) : JSString :=
  senderCompId.printed ++ js "->" ++ targetCompId.printed

/-- The id of a session. -/
def Session.sessionId (s : Session) : JSString :=
  sessionKey s.config.senderCompId s.config.targetCompId

/-- A listener of a socket's `close` event: that of the acceptor or that of a session. -/
inductive CloseListener where
  | acceptor
  | session (s : ℕ)
  deriving DecidableEq

/-- A socket, with the listeners installed on it. -/
structure Connection where
  remoteAddress : JSString
  dataListener : Bool
  errorListener : Bool
  closeListeners : List CloseListener
  ended : Bool
  destroyed : Bool
  closed : Bool

/-- `socket.removeAllListeners()`. -/
def Connection.removeAllListeners (c : Connection) : Connection :=
  { c with dataListener := false, errorListener := false, closeListeners := [] }

/-! ## Suspended tasks -/

/-- Who waits for `handleMessage`: the loop over the messages of a chunk, which goes
on with the rest, or a user. -/
inductive Origin where
  | chunk (c : ℕ) (rest : List Message) (logon : Bool)
  | user

/-- Who waits for `logout`: a user, the registration of another session, or `closeAll`. -/
inductive LogoutCaller where
  | user
  /-- The registration of `s`; `dropped` when nobody handles its promise. -/
  | registration (s : ℕ) (dropped : Bool)
  | closeAll (k : ℕ)

/-- How `validateLogon` ends. -/
inductive LogonVerdict where
  | valid
  | invalid (message : JSString)
  | thrown (e : JSError)

/-- What is left to do after an `await`. -/
inductive Frame where
  /-- `handleIncomingData`: the messages of the chunk that are left. -/
  | nextMessage (c : ℕ) (rest : List Message)
  /-- `validateAuthentication` waits for `validateCredentials`. -/
  | validateCredentials (c : ℕ) (m : Message) (rest : List Message)
  /-- `validateAuthentication` waits for `getAllowedSenderCompIds`. -/
  | getAllowedSenderCompIds (c : ℕ) (m : Message) (rest : List Message)
  /-- `validateAndHandleLogon` after `validateLogon`. -/
  | validated (c : ℕ) (m : Message) (rest : List Message) (verdict : LogonVerdict)
  /-- `sendLogoutAndClose` waits before it destroys the socket. -/
  | closeDelay (c : ℕ) (rest : List Message)
  /-- `validateAndHandleLogon` after `createNewSession`. -/
  | created (c s : ℕ) (m : Message) (rest : List Message)
  /-- `validateAndHandleLogon` after `setupSessionHandlers`. -/
  | handlersSet (c s : ℕ) (m : Message) (rest : List Message)
  /-- `handleLogon` of a session waits for its response, which may have failed already. -/
  | logonResponse (origin : Origin) (s : ℕ) (m : Message) (error : Option JSError)
  /-- `handleTestRequest` waits for its heartbeat. -/
  | testRequestReply (origin : Origin) (s : ℕ) (m : Message) (error : Option JSError)
  /-- `handleMessage` comes to the message handlers. -/
  | messageHandlers (origin : Origin) (s : ℕ) (m : Message)
  /-- `handleMessage` waits for a message handler; the next one has the given index. -/
  | handlerPending (origin : Origin) (s : ℕ) (m : Message) (next : ℕ)
  /-- `logout` waits for its message. -/
  | logoutSent (s : ℕ) (caller : LogoutCaller) (error : Option JSError)
  /-- `registerSession` after the logout of the old session. -/
  | registration (s : ℕ) (dropped : Bool)
  /-- The `k`th `closeAll` after the logouts. -/
  | allClosed (k : ℕ) (stopping : Bool)
  /-- `stop` after `closeAll`. -/
  | closeAllSockets

/-- When a task can go on. -/
inductive Wait where
  /-- At once: its promise has settled. -/
  | ready
  /-- Whenever the user's promise settles. -/
  | user
  /-- When a socket or a timer reports, which needs an empty task queue. -/
  | io
  deriving DecidableEq

/-- What a task waits for. -/
def Frame.wait : Frame → Wait
  | .validateCredentials .. => .user
  | .getAllowedSenderCompIds .. => .user
  | .handlerPending .. => .user
  | .closeDelay .. => .io
  | .logonResponse _ _ _ none => .io
  | .testRequestReply _ _ _ none => .io
  | .logoutSent _ _ none => .io
  | _ => .ready

/-- A call of `closeAll`: the logouts it waits for, and whether one has failed. -/
structure CloseAll where
  pending : ℕ
  failed : Bool
  stopping : Bool

/-! ## The acceptor -/

/-- The options of the acceptor. -/
structure AcceptorConfig where
  targetCompID : Value
  beginString : Value
  /-- Whether authentication is configured. -/
  auth : Bool
  maxSessions : ℕ
  metadata : List FixMetadata

/-- What a step meets: the clock, the sockets that Node calls writable, what the calls
of user code throw, and how the promise of the resumed task settles. -/
structure Input where
  sendingTime : JSString
  writable : ℕ → Bool
  /-- For the calls of user code in a step, in order. -/
  thrown : List (Option JSError)
  settled : Except JSError Unit
  credentials : Bool
  allowedSenderCompIds : List Value

/-- The error the awaited promise rejects with, if any. -/
def Input.settledError (input : Input) : Option JSError :=
  match input.settled with
  | .ok () => none
  | .error e => some e

/-- What can be observed of a run. -/
inductive Observation where
  /-- The processing of a message begins. -/
  | processing (c : ℕ) (m : Message)
  /-- A message of connection `c` is passed to `handleMessage` of session `s`. -/
  | dispatched (c s : ℕ) (m : Message)
  /-- A session writes a message to its socket. -/
  | wrote (s : ℕ) (m : Message) (raw : JSString)
  /-- A session writes its Logon response. -/
  | answered (s : ℕ)
  /-- The acceptor hands a Logout to a socket itself. -/
  | refused (c : ℕ) (raw : JSString)
  /-- A session runs one of its handler sets. -/
  | ran (s : ℕ) (kind : HandlerKind)
  | emitted (s : ℕ) (event : SessionEvent)
  /-- A message handler of a session is called. -/
  | handled (s : ℕ) (m : Message) (handler : ℕ)
  /-- The acceptor emits an error. -/
  | failed (e : JSError)
  /-- The rejection of a registration is left unhandled. -/
  | unhandled (s : ℕ) (e : JSError)
  /-- A promise that a handler or listener of a session has returned rejects, and nobody waits
  for it. -/
  | rejected (s : ℕ) (e : JSError)
  /-- An error is thrown out of the event loop. -/
  | uncaught (e : JSError)
  deriving DecidableEq

/-- The state of an acceptor with its sessions, sockets and suspended tasks. -/
structure AcceptorState where
  config : AcceptorConfig
  sockets : ℕ → Connection
  nextSocket : ℕ
  sessions : ℕ → Session
  nextSession : ℕ
  /-- The `sessions` map of the session manager. -/
  registry : OrderedMap JSString ℕ
  rooms : RoomManager
  activeSockets : OrderedMap JSString ℕ
  listening : Bool
  tasks : List Frame
  /-- The `close` event being emitted, with the listeners still to be called. -/
  closing : Option (ℕ × List CloseListener)
  closeAlls : List CloseAll
  input : Input
  trace : List Observation

/-- Acceptor code. -/
abbrev AcceptorM := Exec JSError AcceptorState

/-- Whether `socket.writable` holds. -/
def AcceptorState.writable (st : AcceptorState) (c : ℕ) : Bool :=
  st.input.writable c && !(st.sockets c).ended && !(st.sockets c).destroyed &&
    !(st.sockets c).closed

/-! ## Elementary actions -/

/-- Change a session. -/
def updateSession (s : ℕ) (f : Session → Session) : AcceptorM Unit :=
  modify fun st => { st with sessions := Function.update st.sessions s (f (st.sessions s)) }

/-- Change a socket. -/
def updateSocket (c : ℕ) (f : Connection → Connection) : AcceptorM Unit :=
  modify fun st => { st with sockets := Function.update st.sockets c (f (st.sockets c)) }

/-- Suspend a task. -/
def suspend (frame : Frame) : AcceptorM Unit :=
  modify fun st => { st with tasks := st.tasks ++ [frame] }

/-- Record an observation. -/
def observe (o : Observation) : AcceptorM Unit :=
  modify fun st => { st with trace := st.trace ++ [o] }

/-- Call user code, which throws or not; a promise that it returns rejects later, if at all. -/
def callUser : AcceptorM Unit := do
  let st ← get
  modify fun st => { st with input := { st.input with thrown := st.input.thrown.tail } }
  match st.input.thrown.headD none with
  | none => pure ()
  | some e => throw e

/-- `socket.destroy()`; the close event comes later. -/
def destroy (c : ℕ) : AcceptorM Unit := updateSocket c fun x => { x with destroyed := true }

/-- `socket.end()`. -/
def endSocket (c : ℕ) : AcceptorM Unit := updateSocket c fun x => { x with ended := true }

end NestQuickfix.Acceptor
