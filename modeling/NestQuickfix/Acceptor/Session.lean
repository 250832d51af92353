import NestQuickfix.Acceptor.State

/-!
# Sessions and the session manager

The methods of `Session` and `SessionManager`, cut at their `await`s. A method that
sends a message goes on when the socket has reported the write; one that fails to
send goes on at once with the error.
-/

namespace NestQuickfix.Acceptor

open Lib

/-! ## Handlers and events -/

/-- `handlers.<kind>.forEach(...)`; a throwing handler ends the loop. -/
def runHandlers (s : ℕ) (kind : HandlerKind) : AcceptorM Unit := do
  observe (.ran s kind)
  let st ← get
  Exec.forEach ((st.sessions s).handlers.simple kind) fun _ => callUser

/-- `emit(event)`; the listeners of the user count as one call. -/
def emit (s : ℕ) (event : SessionEvent) : AcceptorM Unit := do
  observe (.emitted s event)
  callUser

/-- Add a handler to a set. -/
def Handlers.add (h : Handlers) (kind : HandlerKind) (handler : ℕ) : Handlers :=
  if handler ∈ h.simple kind then h
  else { h with simple := Function.update h.simple kind (h.simple kind ++ [handler]) }

/-- Add a handler if there is one. -/
def Handlers.addIf (h : Handlers) (kind : HandlerKind) : Option ℕ → Handlers
  | none => h
  | some handler => h.add kind handler

/-- `registerSessionHandlers`. -/
def registerSessionHandlers (s : ℕ) (metadata : FixMetadata) : AcceptorM Unit :=
  updateSession s fun x =>
    let handlers := (((x.handlers.addIf .logon metadata.onLogon).addIf .logout
      metadata.onLogout).addIf .connected metadata.onConnected).addIf .disconnected
      metadata.onDisconnected
    match metadata.onMessage with
    | none => { x with handlers := handlers }
    | some onMessage =>
      { x with handlers := { handlers with message := handlers.message ++ [onMessage] } }

/-! ## Sending -/

/-- Record a write. -/
def observeWrite (s : ℕ) : Option (Message × JSString) → AcceptorM Unit
  | none => pure ()
  | some (m, raw) => observe (.wrote s m raw)

/-- `sendMessage` up to its `await`: the error it fails with before it waits, if any. -/
def startSend (s : ℕ) (message : Message) : AcceptorM (Option JSError) := do
  let st ← get
  let attempt := sendMessage (st.sessions s).config (st.sessions s).nextOutgoingSeqNum
    ⟨st.input.sendingTime, st.writable (st.sessions s).socket, none⟩ message
  updateSession s fun x => { x with nextOutgoingSeqNum := x.nextOutgoingSeqNum + 1 }
  observeWrite s attempt.written
  pure attempt.error

/-- The error of a send that has been waited for. -/
def sendError (error : Option JSError) : AcceptorM (Option JSError) := do
  let st ← get
  pure (error.or st.input.settledError)

/-- The heartbeat interval fires. -/
def heartbeat (s : ℕ) : AcceptorM Unit := do
  let st ← get
  if (st.sessions s).state = .loggedOn then
    discard (startSend s (heartbeatMessage .undefined))
  else pure ()

/-! ## The registry -/

/-- `new Session(config, socket, ...)`. -/
def newSession (config : SessionConfig) (socket : ℕ) : AcceptorM ℕ := do
  let st ← get
  modify fun st => { st with
    sessions := Function.update st.sessions st.nextSession
      ⟨config, socket, .disconnected, true, 1, ⟨fun _ => [], []⟩⟩
    nextSession := st.nextSession + 1 }
  pure st.nextSession

/-- `this.sessions.set(sessionId, session)`. -/
def setSession (s : ℕ) : AcceptorM Unit :=
  modify fun st => { st with registry := st.registry.set (st.sessions s).sessionId s }

/-- Whether the limit on the number of sessions is reached. -/
def AcceptorState.limitReached (st : AcceptorState) : Bool :=
  decide (st.config.maxSessions ≠ 0 ∧ st.config.maxSessions ≤ st.registry.size)

/-- `createSession`. -/
def createSession (config : SessionConfig) (socket : ℕ) : AcceptorM Unit := do
  let st ← get
  if st.limitReached then throw (js "Maximum number of sessions reached")
  else do
    let s ← newSession config socket
    setSession s

/-- `removeSession`. -/
def removeSession (sessionId : JSString) : AcceptorM Unit := do
  let st ← get
  if st.registry.has sessionId then
    modify fun st => { st with
      rooms := st.rooms.leaveAllRooms sessionId
      registry := st.registry.erase sessionId }
  else pure ()

/-- The end of `registerSession`: check the limit and store the session. The rejection
of a promise that was dropped stays unhandled. -/
def finishRegistration (s : ℕ) (dropped : Bool) : AcceptorM Unit := do
  let st ← get
  if st.limitReached then
    if dropped then
      observe (.unhandled s (js "Maximum number of sessions (" ++ natText st.config.maxSessions ++
        js ") reached"))
    else pure ()
  else setSession s

/-! ## Ending a session -/

/-- `clearTimers`. -/
def Session.clearTimers (x : Session) : Session := { x with heartbeatTimer := false }

/-- Remove all listeners from the socket of a session. -/
def removeAllListeners (s : ℕ) : AcceptorM Unit := do
  let st ← get
  updateSocket (st.sessions s).socket Connection.removeAllListeners

/-- `handleDisconnect`. -/
def handleDisconnect (s : ℕ) : AcceptorM Unit := do
  updateSession s fun x => { x with state := .disconnected }.clearTimers
  runHandlers s .disconnected
  emit s .disconnect
  removeAllListeners s

/-- `closeAll` hears of the end of one of its logouts; the first failure rejects it. -/
def CloseAll.settle (c : CloseAll) (result : Except JSError Unit) : CloseAll :=
  match result with
  | .ok () => { c with pending := c.pending - 1 }
  | .error _ => { c with failed := true }

/-- Whether all logouts have succeeded. -/
def CloseAll.complete (c : CloseAll) : Bool := decide (c.pending = 0) && !c.failed

/-- The promise of `logout` settles. A registration logs a failure and goes on. -/
def settleLogout (caller : LogoutCaller) (result : Except JSError Unit) : AcceptorM Unit :=
  match caller with
  | .user => pure ()
  | .registration s dropped => suspend (.registration s dropped)
  | .closeAll k => do
    let st ← get
    match st.closeAlls[k]? with
    | none => pure ()
    | some c => do
      modify fun st => { st with closeAlls := st.closeAlls.set k (c.settle result) }
      if (c.settle result).complete then suspend (.allClosed k c.stopping) else pure ()

/-- `logout` up to its `await`. -/
def logout (s : ℕ) (reason : Value) (caller : LogoutCaller) : AcceptorM Unit := do
  let st ← get
  if (st.sessions s).state = .disconnected then
    settleLogout caller (.error (js "Session already disconnected"))
  else do
    updateSession s fun x => { x with state := .loggingOut }
    let error ← startSend s (logoutMessage reason)
    suspend (.logoutSent s caller error)

/-- Close the socket of a session if it is writable. -/
def endWritable (s : ℕ) : AcceptorM Unit := do
  let st ← get
  if st.writable (st.sessions s).socket then endSocket (st.sessions s).socket else pure ()

/-- Remove the entry under the id of a session. -/
def removeId (s : ℕ) : AcceptorM Unit := do
  let st ← get
  removeSession (st.sessions s).sessionId

/-- `logout` after its message, whether or not it could be sent. -/
def afterLogoutSent (s : ℕ) : AcceptorM Unit := do
  emit s .loggingOut
  handleDisconnect s
  endWritable s
  removeId s
  emit s .loggedOut

/-- `registerSession` up to its `await`, or to its end when the id is new. -/
def registerSession (s : ℕ) (dropped : Bool) : AcceptorM Unit := do
  let st ← get
  match st.registry.get? (st.sessions s).sessionId with
  | none => finishRegistration s dropped
  | some old =>
    logout old (.str (js "Duplicate session detected - logging out existing session"))
      (.registration s dropped)

/-- `closeAll` up to its `await`. -/
def closeAll (stopping : Bool) : AcceptorM Unit := do
  let st ← get
  let sessions := st.registry.values
  modify fun st => { st with closeAlls := st.closeAlls ++ [CloseAll.mk sessions.length false stopping] }
  if sessions = [] then suspend (.allClosed st.closeAlls.length stopping)
  else Exec.forEach sessions fun s => logout s .undefined (.closeAll st.closeAlls.length)

/-! ## Handling messages -/

/-- The `catch` of `handleLogon`: a failed Logon costs the connection. -/
def destroyFailed (c : ℕ) (logon : Bool) : Except JSError Unit → AcceptorM Unit
  | .ok () => pure ()
  | .error _ => if logon then destroy c else pure ()

/-- The promise of `handleMessage` settles; the loop over the chunk goes on. -/
def settleMessage (origin : Origin) (result : Except JSError Unit) : AcceptorM Unit :=
  match origin with
  | .user => pure ()
  | .chunk c rest logon => do
    destroyFailed c logon result
    suspend (.nextMessage c rest)

/-- The index of the next handler for a message type. -/
def nextHandler (msgType : Value) : List MessageHandler → ℕ → Option ℕ
  | [], _ => none
  | h :: handlers, i =>
    if !h.msgType.truthy || h.msgType = msgType then some i else nextHandler msgType handlers (i + 1)

/-- Call the next message handler and wait for it, or end `handleMessage`. -/
def runMessageHandlers (origin : Origin) (s : ℕ) (m : Message) (next : ℕ) : AcceptorM Unit := do
  let st ← get
  match nextHandler (m.getField Fields.msgType) ((st.sessions s).handlers.message.drop next) next with
  | none => settleMessage origin (.ok ())
  | some i => do
    observe (.handled s m i)
    match ← Exec.attempt callUser with
    | .ok () => suspend (.handlerPending origin s m (i + 1))
    | .error e => settleMessage origin (.error e)

/-- `sendLogonResponse` up to its `await`. -/
def sendLogonResponse (s : ℕ) : AcceptorM (Option JSError) := do
  let st ← get
  match ← startSend s (logonMessage (st.sessions s).config.heartbeatInterval (.int 0) false) with
  | none => do
    observe (.answered s)
    pure none
  | some e => pure (some e)

/-- `handleLogon` of a session up to its `await`. -/
def startLogon (origin : Origin) (s : ℕ) (m : Message) : AcceptorM Unit := do
  updateSession s fun x => { x with state := .loggedOn }
  let error ← sendLogonResponse s
  suspend (.logonResponse origin s m error)

/-- `handleLogon` of a session after its response. -/
def afterLogonResponse (s : ℕ) (error : Option JSError) : AcceptorM Unit :=
  match error with
  | some e => throw e
  | none => do
    runHandlers s .connected
    runHandlers s .logon
    emit s .loggedOn

/-- Close the socket of a session. -/
def endOwnSocket (s : ℕ) : AcceptorM Unit := do
  let st ← get
  endSocket (st.sessions s).socket

/-- `handleLogout` of a session. -/
def handleLogout (s : ℕ) : AcceptorM Unit := do
  runHandlers s .logout
  updateSession s fun x => { x with state := .disconnected }
  emit s .loggedOut
  handleDisconnect s
  endOwnSocket s
  removeId s

/-- `handleTestRequest` of a session up to its `await`. -/
def startTestRequestReply (origin : Origin) (s : ℕ) (m : Message) : AcceptorM Unit := do
  let error ← startSend s (heartbeatMessage (m.getField Fields.testReqID))
  suspend (.testRequestReply origin s m error)

/-- `handleMessage` of a session. -/
def handleMessage (origin : Origin) (s : ℕ) (m : Message) : AcceptorM Unit :=
  if m.getField Fields.msgType = MsgType.logon then startLogon origin s m
  else if m.getField Fields.msgType = MsgType.logout then do
    match ← Exec.attempt (handleLogout s) with
    | .ok () => suspend (.messageHandlers origin s m)
    | .error e => settleMessage origin (.error e)
  else if m.getField Fields.msgType = MsgType.testRequest then startTestRequestReply origin s m
  else runMessageHandlers origin s m 0

end NestQuickfix.Acceptor
