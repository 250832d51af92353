import NestQuickfix.Acceptor.MessageHandler
import NestQuickfix.Lib.Run
import NestQuickfix.Message.Parser

/-!
# Runs of an acceptor

Node reports connections, data, closes and timers when no task can go on at once;
tasks that can go on at once do so in any order, which includes the order in which
Node runs them. Users call sessions and the session manager at any time. The calls
that a handler makes count as events of their own; the handler itself throws or not,
and where nobody waits for its promise, the rejection of it is an event as well.

A `close` event calls the listeners present when it began, one after the other,
and nothing else happens meanwhile. An error thrown by a listener ends it.
-/

namespace NestQuickfix.Acceptor

open Lib

/-! ## Connections -/

/-- `setupSocketEventHandlers`. -/
def Connection.setupSocketEventHandlers (x : Connection) : Connection :=
  { x with
    dataListener := true
    errorListener := true
    closeListeners := x.closeListeners ++ [.acceptor] }

/-- `handleNewConnection`. -/
def handleNewConnection (remoteAddress : JSString) : AcceptorM Unit := do
  let st ← get
  updateSocket st.nextSocket fun x =>
    { x with remoteAddress := remoteAddress }.setupSocketEventHandlers
  modify fun st => { st with
    nextSocket := st.nextSocket + 1
    activeSockets := st.activeSockets.set remoteAddress st.nextSocket }

/-- A chunk arrives. -/
def receive (c : ℕ) (data : List UInt8) : AcceptorM Unit := do
  let st ← get
  if (st.sockets c).dataListener then processMessages c (processData data) else pure ()

/-- A socket is closed, and its `close` event begins. -/
def beginClose (c : ℕ) : AcceptorM Unit := do
  updateSocket c fun x => { x with closed := true }
  modify fun st => { st with closing := some (c, (st.sockets c).closeListeners) }

/-- `cleanupSocketSessions`: end the sessions of a list that are on the socket. -/
def cleanupSessions (c : ℕ) : List ℕ → AcceptorM Unit
  | [] => pure ()
  | s :: sessions => do
    let st ← get
    if (st.sessions s).socket = c then do
      handleDisconnect s
      removeId s
      cleanupSessions c sessions
    else cleanupSessions c sessions

/-- `cleanupSocketSessions`; an error is logged. -/
def cleanupSocketSessions (c : ℕ) : AcceptorM Unit := do
  let st ← get
  discard (Exec.attempt (cleanupSessions c st.registry.values))

/-- A listener of the `close` event of a socket. -/
def callCloseListener (c : ℕ) : CloseListener → AcceptorM Unit
  | .acceptor => do
    modify fun st => { st with
      activeSockets := st.activeSockets.erase (st.sockets c).remoteAddress }
    cleanupSocketSessions c
  | .session s => do
    handleDisconnect s
    removeId s

/-- Call the next listener of the `close` event, or end it. -/
def callNextListener : AcceptorM Unit := do
  let st ← get
  match st.closing with
  | none => pure ()
  | some (_, []) => modify fun st => { st with closing := none }
  | some (c, listener :: listeners) => do
    modify fun st => { st with closing := some (c, listeners) }
    match ← Exec.attempt (callCloseListener c listener) with
    | .ok () => pure ()
    | .error e => do
      observe (.uncaught e)
      modify fun st => { st with closing := none }

/-! ## Suspended tasks -/

/-- `closeAllSockets` and `closeServer`. -/
def closeAllSockets : AcceptorM Unit := do
  let st ← get
  Exec.forEach st.activeSockets.values destroy
  modify fun st => { st with activeSockets := .empty, listening := false }

/-- Go on with a task. -/
def resume : Frame → AcceptorM Unit
  | .nextMessage c rest => processMessages c rest
  | .validateCredentials c m rest => afterValidateCredentials c m rest
  | .getAllowedSenderCompIds c m rest => afterGetAllowedSenderCompIds c m rest
  | .validated c m rest verdict => afterValidated c m rest verdict
  | .closeDelay c rest => do
    destroy c
    suspend (.nextMessage c rest)
  | .created c s m rest => do
    setupSessionHandlers s
    suspend (.handlersSet c s m rest)
  | .handlersSet c s m rest => do
    setupDisconnectHandler c s
    handleMessage (.chunk c rest true) s m
  | .logonResponse origin s m error => do
    let error ← sendError error
    match ← Exec.attempt (afterLogonResponse s error) with
    | .ok () => suspend (.messageHandlers origin s m)
    | .error e => do
      updateSession s fun x => { x with state := .error }
      settleMessage origin (.error e)
  | .testRequestReply origin s m error => do
    match ← sendError error with
    | none => suspend (.messageHandlers origin s m)
    | some e => settleMessage origin (.error e)
  | .messageHandlers origin s m => runMessageHandlers origin s m 0
  | .handlerPending origin s m next => do
    let st ← get
    match st.input.settled with
    | .ok () => runMessageHandlers origin s m next
    | .error e => settleMessage origin (.error e)
  | .logoutSent s caller _ => do
    let result ← Exec.attempt (afterLogoutSent s)
    settleLogout caller result
  | .registration s dropped => finishRegistration s dropped
  | .allClosed _ stopping => do
    modify fun st => { st with registry := .empty }
    if stopping then suspend .closeAllSockets else pure ()
  | .closeAllSockets => closeAllSockets

/-- Take task `i` and go on with it. -/
def resumeTask (i : ℕ) : AcceptorM Unit := do
  let st ← get
  match st.tasks[i]? with
  | none => pure ()
  | some frame => do
    modify fun st => { st with tasks := st.tasks.eraseIdx i }
    resume frame

/-! ## Events -/

/-- What happens to an acceptor. -/
inductive Event where
  | connect (remoteAddress : JSString)
  | data (c : ℕ) (data : List UInt8)
  | socketError (c : ℕ) (e : JSError)
  | close (c : ℕ)
  /-- The next listener of a `close` event. -/
  | nextListener
  /-- Task `i` goes on. -/
  | resume (i : ℕ)
  | heartbeat (s : ℕ)
  /-- A promise rejects that a handler or listener of `s` has returned to nobody. -/
  | reject (s : ℕ) (e : JSError)
  -- from here on, calls of users
  | send (s : ℕ) (m : Message)
  | logout (s : ℕ) (reason : Value)
  | join (s : ℕ) (roomId : JSString)
  | leave (s : ℕ) (roomId : JSString)
  | handleMessage (s : ℕ) (m : Message)
  | registerHandlers (s : ℕ) (metadata : FixMetadata)
  | stop
  | closeAll
  | newSession (config : SessionConfig) (socket : ℕ)
  | createSession (config : SessionConfig) (socket : ℕ)
  | registerSession (s : ℕ)
  | removeSession (sessionId : JSString)

/-- An event and what the step meets. -/
structure Step where
  event : Event
  input : Input

/-- No task can go on at once. -/
def AcceptorState.quiet (st : AcceptorState) : Bool :=
  st.tasks.all fun frame => frame.wait ≠ .ready

/-- Whether task `i` can go on. -/
def AcceptorState.canResume (st : AcceptorState) (i : ℕ) : Bool :=
  match st.tasks[i]? with
  | none => false
  | some frame => frame.wait ≠ .io || st.quiet

/-- Whether an observation is of a call of user code of a session that nobody waits for. -/
def Observation.calls (s : ℕ) : Observation → Bool
  | .ran s' _ | .emitted s' _ => decide (s' = s)
  | _ => false

/-- Whether an event can happen. -/
def AcceptorState.enabled (st : AcceptorState) (e : Event) : Bool :=
  match e with
  | .nextListener => st.closing.isSome
  | e => st.closing.isNone && match e with
    | .connect _ => st.quiet && st.listening
    | .data c _ => st.quiet && decide (c < st.nextSocket) && !(st.sockets c).destroyed &&
        !(st.sockets c).closed
    | .socketError c _ => st.quiet && decide (c < st.nextSocket) && !(st.sockets c).closed
    | .close c => st.quiet && decide (c < st.nextSocket) && !(st.sockets c).closed
    | .resume i => st.canResume i
    | .heartbeat s => st.quiet && (st.sessions s).heartbeatTimer
    | .reject s _ => st.quiet && st.trace.any (Observation.calls s)
    | .send s _ | .logout s _ | .join s _ | .leave s _ | .handleMessage s _
    | .registerHandlers s _ | .registerSession s => decide (s < st.nextSession)
    | _ => true

/-- What an event does. -/
def perform : Event → AcceptorM Unit
  | .connect remoteAddress => handleNewConnection remoteAddress
  | .data c data => receive c data
  | .socketError c e => socketError c e
  | .close c => beginClose c
  | .nextListener => callNextListener
  | .resume i => resumeTask i
  | .heartbeat s => heartbeat s
  | .reject s e => observe (.rejected s e)
  | .send s m => discard (startSend s m)
  | .logout s reason => logout s reason .user
  | .join s roomId => modify fun st =>
    { st with rooms := st.rooms.join roomId (st.sessions s).sessionId }
  | .leave s roomId => modify fun st =>
    { st with rooms := st.rooms.leave roomId (st.sessions s).sessionId }
  | .handleMessage s m => handleMessage .user s m
  | .registerHandlers s metadata => registerSessionHandlers s metadata
  | .stop => closeAll true
  | .closeAll => closeAll false
  | .newSession config socket => discard (newSession config socket)
  | .createSession config socket => createSession config socket
  | .registerSession s => registerSession s false
  | .removeSession sessionId => removeSession sessionId

/-- One event. -/
def AcceptorState.step (st : AcceptorState) (e : Step) : Option AcceptorState :=
  if st.enabled e.event then some ((perform e.event).after { st with input := e.input }) else none

/-- A step at a fixed time in which nothing throws or fails. -/
def Input.calm : Input where
  sendingTime := js "20250101-00:00:00"
  writable := fun _ => true
  thrown := []
  settled := .ok ()
  credentials := true
  allowedSenderCompIds := []

/-- A started acceptor. -/
def AcceptorState.new (config : AcceptorConfig) : AcceptorState where
  config := config
  sockets := fun _ => ⟨[], false, false, [], false, false, false⟩
  nextSocket := 0
  sessions := fun _ =>
    ⟨⟨.undefined, .undefined, .nan, .undefined⟩, 0, .disconnected, false, 1, ⟨fun _ => [], []⟩⟩
  nextSession := 0
  registry := .empty
  rooms := .empty
  activeSockets := .empty
  listening := true
  tasks := []
  closing := none
  closeAlls := []
  input := .calm
  trace := []

/-! ## A broker -/

/-- A broker without authentication and with at most `maxSessions` sessions. -/
def broker (maxSessions : ℕ) : AcceptorState := .new
  ⟨.str (js "BROKER"), .str (js "FIX.4.4"), false, maxSessions, []⟩

/-- The bytes of a message from a client to the broker. -/
def clientBytes (msgType client : JSString) (fields : List (ℕ × JSString)) : List UInt8 :=
  match (Message.ofStrings ([(8, js "FIX.4.4"), (35, msgType), (49, client), (56, js "BROKER"),
    (34, js "1"), (52, js "20250101-00:00:00")] ++ fields)).toString with
  | .ok raw => toUtf8 raw
  | .error _ => []

/-- The bytes of a Logon. -/
def logonBytes (client : JSString) : List UInt8 :=
  clientBytes (js "A") client [(98, js "0"), (108, js "30")]

/-- An event in a step where nothing throws or fails. -/
def Event.calmly (e : Event) : Step := ⟨e, .calm⟩

/-- A client logs on over a connection, when no task is pending. -/
def logonSteps (c : ℕ) (client : JSString) : List Step :=
  (Event.data c (logonBytes client) :: List.replicate 6 (.resume 0)).map Event.calmly

/-- A client logs on, and its connection closes. -/
def leavingSteps : List Step :=
  (Event.connect (js "client:1")).calmly :: logonSteps 0 (js "CLIENT") ++
    ([Event.close 0, .nextListener, .nextListener, .nextListener].map Event.calmly)

/-- An acceptor with its connections and users as a system. -/
def acceptor : System AcceptorState Step where
  init st := ∃ config, st = .new config
  step := AcceptorState.step

end NestQuickfix.Acceptor
