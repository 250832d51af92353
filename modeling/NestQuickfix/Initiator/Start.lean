import NestQuickfix.Acceptor.System
import NestQuickfix.Initiator.Initiator

/-!
# Starting an initiator

`start` connects the socket of the initiator and calls `logon` of its session. A failure is
reported, and the reconnect timer may call `start` again. The code is cut at its `await`s,
like that of the acceptor.
-/

namespace NestQuickfix.Initiator

open Lib Acceptor

/-! ## The state of an initiator -/

/-- The options for reconnecting; the length of the interval does not matter here. -/
structure ReconnectConfig where
  enabled : Bool
  maxAttempts : ℕ

/-- The options of an initiator with all that `start` reads. -/
structure StartConfig extends InitiatorConfig where
  reconnect : Option ReconnectConfig
  maxSessions : ℕ

/-- Who calls `start`. -/
inductive StartCaller where
  | user
  | timer
  deriving DecidableEq

/-- What is left to do after an `await`. -/
inductive Waiting where
  /-- The `k`th `start` waits for its `connect`. -/
  | connecting (k : ℕ) (caller : StartCaller)
  /-- `start` after its `connect`. -/
  | connected (k : ℕ) (caller : StartCaller) (result : Except JSError Unit)
  /-- `logon` waits for its message, which may have failed already. -/
  | logonSent (k : ℕ) (caller : StartCaller) (error : Option JSError)
  /-- The `logout` that `stop` calls waits for its message. -/
  | logoutSent (error : Option JSError)

/-- What can be observed of an initiator. -/
inductive InitiatorObservation where
  /-- The `connect` of the `k`th `start` succeeds. -/
  | connected (k : ℕ)
  /-- The session writes the Logon of the `k`th `start`. -/
  | wroteLogon (k : ℕ)
  /-- The `k`th `start` emits STARTED. -/
  | started (k : ℕ)
  | stopped
  | loggingOn
  | failed (e : JSError)
  | maxReconnectAttempts
  | reconnectFailed (e : JSError)
  /-- The promise of the `k`th `start` settles. -/
  | settled (k : ℕ) (result : Option JSError)
  /-- An error is thrown out of the event loop. -/
  | uncaught (e : JSError)
  deriving DecidableEq

/-- The state of an initiator. Its session and its socket have number 0 in its manager. -/
structure InitiatorState where
  config : StartConfig
  manager : AcceptorState
  /-- The number of calls of `start`. -/
  starts : ℕ
  /-- The calls of `start` whose `connect` listens to the socket. -/
  listeners : List ℕ
  waiting : List Waiting
  reconnectAttempts : ℕ
  /-- The timers that are set. -/
  timers : List ℕ
  nextTimer : ℕ
  reconnectTimer : Option ℕ
  trace : List InitiatorObservation

/-- Initiator code. -/
abbrev InitiatorM := Exec JSError InitiatorState

/-- The session of an initiator. -/
def InitiatorState.session (st : InitiatorState) : Session := st.manager.sessions 0

/-- Run code of the session. When it removes the listeners of the socket, those of `connect`
are gone, too. -/
def onManager {α : Type} (x : AcceptorM α) : InitiatorM α := do
  let st ← get
  let manager := x.after st.manager
  set { st with
    manager := manager
    listeners := if (manager.sockets 0).dataListener then st.listeners else [] }
  match (x.result st.manager).1 with
  | .ok a => pure a
  | .error e => throw e

/-- Suspend a task. -/
def wait (w : Waiting) : InitiatorM Unit :=
  modify fun st => { st with waiting := st.waiting ++ [w] }

/-- Record an observation. -/
def note (o : InitiatorObservation) : InitiatorM Unit :=
  modify fun st => { st with trace := st.trace ++ [o] }

/-- Emit an event; the listeners of the user count as one call. Without a listener `emit`
throws the error of an error event. -/
def announce (o : InitiatorObservation) : InitiatorM Unit := do
  note o
  onManager callUser

/-! ## Connecting -/

/-- A socket that is connected once more. A destroyed one starts anew. -/
def Connection.connectAgain (x : Connection) : Connection :=
  let x := { x with dataListener := true, errorListener := true }
  if x.destroyed then { x with ended := false, destroyed := false, closed := false } else x

/-- `connect` up to its `await`. -/
def connect (k : ℕ) (caller : StartCaller) : InitiatorM Unit := do
  onManager (updateSocket 0 Connection.connectAgain)
  modify fun st => { st with listeners := st.listeners ++ [k] }
  wait (.connecting k caller)

/-- `start` up to its first `await`. -/
def start (caller : StartCaller) : InitiatorM Unit := do
  let st ← get
  modify fun st => { st with starts := st.starts + 1 }
  connect st.starts caller

/-- The promise of a `connect` that listens to the socket settles. -/
def Waiting.settle (listeners : List ℕ) (result : Except JSError Unit) : Waiting → Waiting
  | .connecting k caller =>
    if k ∈ listeners then .connected k caller result else .connecting k caller
  | w => w

/-- The call of `start` whose `connect` a socket event settles. -/
def Waiting.settles (listeners : List ℕ) : Waiting → Option ℕ
  | .connecting k _ => if k ∈ listeners then some k else none
  | _ => none

/-- The `connect` event of the socket. -/
def socketConnect : InitiatorM Unit :=
  modify fun st => { st with
    waiting := st.waiting.map (Waiting.settle st.listeners (.ok ()))
    trace := st.trace ++ (st.waiting.filterMap (Waiting.settles st.listeners)).map .connected }

/-- The `error` event of the socket; without a listener the error is thrown. -/
def emitSocketError (e : JSError) : InitiatorM Unit := do
  let st ← get
  if (st.manager.sockets 0).errorListener then
    modify fun st => { st with
      waiting := st.waiting.map (Waiting.settle st.listeners (.error e)) }
  else note (.uncaught e)

/-- The socket reports an error and is destroyed. -/
def socketError (e : JSError) : InitiatorM Unit := do
  emitSocketError e
  onManager (destroy 0)

/-! ## Logging on -/

/-- `logon` of the session up to its `await`. -/
def startLogon (k : ℕ) : InitiatorM (Option JSError) := do
  let st ← get
  if st.session.state ≠ .connected then
    throw (js "Session must be in CONNECTED state to logon")
  else do
    onManager (updateSession 0 fun x => { x with state := .loggingOn })
    match ← onManager (startSend 0
        (logonMessage st.session.config.heartbeatInterval (.int 0) true)) with
    | none => do
      note (.wroteLogon k)
      pure none
    | some e => pure (some e)

/-- `logon` of the session after its message. -/
def afterLogonSent (error : Option JSError) : InitiatorM Unit := do
  let result ← Exec.attempt (do
    match ← onManager (sendError error) with
    | none => announce .loggingOn
    | some e => throw e)
  match result with
  | .ok () => pure ()
  | .error e => do
    onManager (updateSession 0 fun x => { x with state := .error })
    throw e

/-! ## Failures -/

/-- Whether a failed start is tried again. -/
def StartConfig.reconnects (config : StartConfig) : Bool :=
  config.reconnect.any ReconnectConfig.enabled

/-- `scheduleReconnect`. -/
def scheduleReconnect : InitiatorM Unit := do
  let st ← get
  if st.config.reconnect.elim 3 ReconnectConfig.maxAttempts ≤ st.reconnectAttempts then
    announce .maxReconnectAttempts
  else modify fun st => { st with
    timers := st.timers ++ [st.nextTimer]
    nextTimer := st.nextTimer + 1
    reconnectTimer := some st.nextTimer }

/-- The `catch` of `start`. -/
def handleFailure (e : JSError) : InitiatorM Unit := do
  announce (.failed e)
  let st ← get
  if st.config.reconnects then scheduleReconnect else throw e

/-- The promise of `start` settles. The timer reports a failure. -/
def settleStart (k : ℕ) (caller : StartCaller) (result : Except JSError Unit) :
    InitiatorM Unit :=
  match result with
  | .ok () => note (.settled k none)
  | .error e => do
    note (.settled k (some e))
    match caller with
    | .user => pure ()
    | .timer => discard (Exec.attempt (announce (.reconnectFailed e)))

/-- The end of `start`. -/
def finishStart (k : ℕ) (caller : StartCaller) (result : Except JSError Unit) :
    InitiatorM Unit :=
  match result with
  | .ok () => settleStart k caller (.ok ())
  | .error e => do
    let result ← Exec.attempt (handleFailure e)
    settleStart k caller result

/-! ## Stopping -/

/-- `stop` up to its first `await`; the `logout` of a disconnected session fails. -/
def stop : InitiatorM Unit := do
  modify fun st => { st with timers := st.timers.filter fun id => some id ≠ st.reconnectTimer }
  let st ← get
  if st.session.state = .disconnected then pure ()
  else do
    onManager (updateSession 0 fun x => { x with state := .loggingOut })
    let error ← onManager (startSend 0 (logoutMessage .undefined))
    wait (.logoutSent error)

/-! ## Suspended tasks -/

/-- Go on with a task. -/
def resume : Waiting → InitiatorM Unit
  | .connecting _ _ => pure ()
  | .connected k caller (.error e) => finishStart k caller (.error e)
  | .connected k caller (.ok ()) => do
    match ← Exec.attempt (startLogon k) with
    | .ok error => wait (.logonSent k caller error)
    | .error e => finishStart k caller (.error e)
  | .logonSent k caller error => do
    let result ← Exec.attempt (do
      afterLogonSent error
      announce (.started k))
    finishStart k caller result
  | .logoutSent _ => do
    match ← Exec.attempt (onManager (afterLogoutSent 0)) with
    | .ok () => do
      onManager (destroy 0)
      discard (Exec.attempt (announce .stopped))
    | .error _ => pure ()

/-- Take task `i` and go on with it. -/
def resumeWaiting (i : ℕ) : InitiatorM Unit := do
  let st ← get
  match st.waiting[i]? with
  | none => pure ()
  | some w => do
    modify fun st => { st with waiting := st.waiting.eraseIdx i }
    resume w

/-- The reconnect timer calls `start`. -/
def fireTimer (id : ℕ) : InitiatorM Unit := do
  modify fun st => { st with
    timers := st.timers.erase id
    reconnectAttempts := st.reconnectAttempts + 1 }
  start .timer

/-! ## Runs -/

/-- What happens to an initiator. -/
inductive InitiatorCall where
  | start
  | stop
  | socketConnect
  | socketError (e : JSError)
  | socketClose
  | timer (id : ℕ)
  /-- Task `i` of the initiator goes on. -/
  | resume (i : ℕ)
  /-- An event of the session. -/
  | session (e : Event)

/-- An event and what the step meets. -/
structure InitiatorStep where
  call : InitiatorCall
  input : Input

/-- Whether an event is one of a session: its timer, one of its tasks, a promise of one of its
handlers, or a call of one of its methods. -/
def isSessionEvent : Event → Bool
  | .resume _ | .heartbeat _ | .reject .. | .send .. | .logout .. | .join .. | .leave ..
  | .handleMessage .. | .registerHandlers .. => true
  | _ => false

/-- When a task can go on; `none` for a `connect` that has not settled. -/
def Waiting.wait : Waiting → Option Wait
  | .connecting .. => none
  | .logonSent _ _ none | .logoutSent none => some .io
  | _ => some .ready

/-- No task can go on at once. -/
def InitiatorState.quiet (st : InitiatorState) : Bool :=
  st.manager.quiet && st.waiting.all fun w => w.wait ≠ some .ready

/-- Whether an event can happen. -/
def InitiatorState.enabled (st : InitiatorState) : InitiatorCall → Bool
  | .start | .stop => true
  | .socketConnect | .socketError _ | .socketClose => st.quiet
  | .timer id => st.quiet && decide (id ∈ st.timers)
  | .resume i =>
    match (st.waiting[i]?).bind Waiting.wait with
    | none => false
    | some w => w ≠ .io || st.quiet
  | .session e => isSessionEvent e && st.manager.enabled e

/-- What an event does. -/
def performCall : InitiatorCall → InitiatorM Unit
  | .start => start .user
  | .stop => stop
  | .socketConnect => socketConnect
  | .socketError e => socketError e
  -- a socket that emits `close` has been destroyed, whatever closed it
  | .socketClose => onManager (updateSocket 0 fun x => { x with closed := true, destroyed := true })
  | .timer id => fireTimer id
  | .resume i => resumeWaiting i
  | .session e => onManager (Acceptor.perform e)

/-- The state in which a step begins. -/
def InitiatorState.meets (st : InitiatorState) (e : InitiatorStep) : InitiatorState :=
  { st with manager := { st.manager with input := e.input } }

/-- One event. -/
def InitiatorState.step (st : InitiatorState) (e : InitiatorStep) : Option InitiatorState :=
  if st.enabled e.call then some ((performCall e.call).after (st.meets e)) else none

/-- A new initiator with its session. -/
def InitiatorState.new (config : StartConfig) : InitiatorState where
  config := config
  manager := (newSession (setupSession config.toInitiatorConfig) 0).after
    (.new ⟨.undefined, config.beginString, false, config.maxSessions, []⟩)
  starts := 0
  listeners := []
  waiting := []
  reconnectAttempts := 0
  timers := []
  nextTimer := 0
  reconnectTimer := none
  trace := []

/-- An initiator with its socket and its users as a system. -/
def startedInitiator : System InitiatorState InitiatorStep where
  init st := ∃ config, st = .new config
  step := InitiatorState.step

end NestQuickfix.Initiator
