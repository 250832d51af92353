import NestQuickfix.Acceptor.Session

/-!
# Routing of messages

`FIXAcceptor.processMessage` and `AcceptorMessageHandler`: a Logon is validated and
gets a session of its own; any other message is passed to the session that is
registered under the CompIDs of the message.
-/

namespace NestQuickfix.Acceptor

open Lib

/-! ## Sockets -/

/-- The `error` event of a socket; without a listener the error is thrown. -/
def emitSocketError (c : ℕ) (e : JSError) : AcceptorM Unit := do
  let st ← get
  if (st.sockets c).errorListener then observe (.failed e) else observe (.uncaught e)

/-- A socket reports an error and is destroyed. -/
def socketError (c : ℕ) (e : JSError) : AcceptorM Unit := do
  emitSocketError c e
  destroy c

/-- Whether a write fails because the socket has been ended. A destroyed socket drops writes. -/
def Connection.failsWrite (x : Connection) : Bool := x.ended && !x.destroyed && !x.closed

/-- The error of a write to a socket that has been ended follows at once. -/
def failEndedWrite (c : ℕ) : AcceptorM Unit := do
  let st ← get
  if (st.sockets c).failsWrite then socketError c (js "write after end") else pure ()

/-- `socket.write` of a refusal. -/
def writeRefusal (c : ℕ) (raw : JSString) : AcceptorM Unit := do
  observe (.refused c raw)
  failEndedWrite c

/-! ## Refusals -/

/-- `createLogoutMessage`. -/
def createLogoutMessage (config : AcceptorConfig) (sendingTime : JSString) (m : Message)
    (reason : JSString) : Message :=
  (logoutMessage (.str reason)).setFields [(Fields.senderCompID, m.getField Fields.targetCompID),
    (Fields.targetCompID, m.getField Fields.senderCompID),
    (Fields.beginString, config.beginString), (Fields.msgSeqNum, .num (.int 1)),
    (Fields.sendingTime, .str sendingTime)]

/-- `sendLogoutAndClose` up to its `await`; the loop over the chunk goes on later. -/
def sendLogoutAndClose (c : ℕ) (m : Message) (rest : List Message) (reason : JSString) :
    AcceptorM Unit := do
  let st ← get
  match (createLogoutMessage st.config st.input.sendingTime m reason).toString with
  | .error e => throw e
  | .ok raw => do
    writeRefusal c raw
    suspend (.closeDelay c rest)

/-- Send a Logout; when that fails, the loop over the chunk goes on. -/
def refuseMessage (c : ℕ) (m : Message) (rest : List Message) (reason : JSString) :
    AcceptorM Unit := do
  match ← Exec.attempt (sendLogoutAndClose c m rest reason) with
  | .ok () => pure ()
  | .error _ => suspend (.nextMessage c rest)

/-- Refuse a Logon; when that fails, `handleLogon` destroys the socket. -/
def refuseThrownLogon (c : ℕ) (m : Message) (rest : List Message) (reason : JSString) :
    AcceptorM Unit := do
  match ← Exec.attempt (sendLogoutAndClose c m rest reason) with
  | .ok () => pure ()
  | .error _ => do
    destroy c
    suspend (.nextMessage c rest)

/-- Refuse an invalid Logon; a failure is caught like that of the validation. -/
def refuseLogon (c : ℕ) (m : Message) (rest : List Message) (reason : JSString) :
    AcceptorM Unit := do
  match ← Exec.attempt (sendLogoutAndClose c m rest reason) with
  | .ok () => pure ()
  | .error e => refuseThrownLogon c m rest e

/-! ## Logon -/

/-- `validateRequiredFields` of a Logon. -/
def logonFields : List FieldType :=
  [Fields.senderCompID, Fields.targetCompID, Fields.heartBtInt, Fields.encryptMethod]

/-- `validateLogon` up to its first `await`: thrown and invalid Logons are refused, and
without authentication the others are valid. -/
def validateLogon (c : ℕ) (m : Message) (rest : List Message) : AcceptorM Unit := do
  let st ← get
  match m.requireFields logonFields with
  | .error e => suspend (.validated c m rest (.thrown e))
  | .ok () =>
    if m.getField Fields.targetCompID ≠ st.config.targetCompID then
      suspend (.validated c m rest (.invalid (js "Invalid TargetCompID")))
    else if st.config.auth then suspend (.validateCredentials c m rest)
    else suspend (.validated c m rest .valid)

/-- `validateAuthentication` after `validateCredentials`. -/
def afterValidateCredentials (c : ℕ) (m : Message) (rest : List Message) : AcceptorM Unit := do
  let st ← get
  match st.input.settled with
  | .error e => suspend (.validated c m rest (.thrown e))
  | .ok () =>
    if st.input.credentials then suspend (.getAllowedSenderCompIds c m rest)
    else suspend (.validated c m rest (.invalid (js "Invalid credentials")))

/-- `validateAuthentication` after `getAllowedSenderCompIds`. -/
def afterGetAllowedSenderCompIds (c : ℕ) (m : Message) (rest : List Message) :
    AcceptorM Unit := do
  let st ← get
  match st.input.settled with
  | .error e => suspend (.validated c m rest (.thrown e))
  | .ok () =>
    if m.getField Fields.senderCompID ∈ st.input.allowedSenderCompIds then
      suspend (.validated c m rest .valid)
    else suspend (.validated c m rest (.invalid (js "Invalid sender comp ID")))

/-- `buildSessionConfig`. -/
def buildSessionConfig (config : AcceptorConfig) (logon : Message) : SessionConfig where
  senderCompId := logon.getField Fields.senderCompID
  targetCompId := logon.getField Fields.targetCompID
  heartbeatInterval := parseInt (logon.getField Fields.heartBtInt).printed
  beginString := config.beginString

/-- `createNewSession`; the promise of the registration is dropped. -/
def createNewSession (c : ℕ) (logon : Message) : AcceptorM ℕ := do
  let st ← get
  let s ← newSession (buildSessionConfig st.config logon) c
  registerSession s true
  pure s

/-- `validateAndHandleLogon` after `validateLogon`. -/
def afterValidated (c : ℕ) (m : Message) (rest : List Message) (verdict : LogonVerdict) :
    AcceptorM Unit :=
  match verdict with
  | .thrown e => refuseThrownLogon c m rest e
  | .invalid reason =>
    refuseLogon c m rest (if reason = [] then js "Invalid logon message" else reason)
  | .valid => do
    let s ← createNewSession c m
    suspend (.created c s m rest)

/-- `setupSessionHandlers`. -/
def setupSessionHandlers (s : ℕ) : AcceptorM Unit := do
  let st ← get
  Exec.forEach st.config.metadata (registerSessionHandlers s)

/-- `setupDisconnectHandler`. -/
def setupDisconnectHandler (c s : ℕ) : AcceptorM Unit :=
  updateSocket c fun x => { x with closeListeners := x.closeListeners ++ [.session s] }

/-! ## Processing -/

/-- The id under which a message is routed. -/
def buildSessionId (m : Message) : JSString :=
  sessionKey (m.getField Fields.senderCompID) (m.getField Fields.targetCompID)

/-- `handleNonLogonMessage`. -/
def handleNonLogonMessage (c : ℕ) (m : Message) (rest : List Message) : AcceptorM Unit := do
  let st ← get
  match st.registry.get? (buildSessionId m) with
  | none => refuseMessage c m rest (js "Session not logged on. Please logon first.")
  | some s => do
    observe (.dispatched c s m)
    handleMessage (.chunk c rest false) s m

/-- `handleDataError`. -/
def handleDataError (e : JSError) (c : ℕ) : AcceptorM Unit := do
  observe (.failed e)
  destroy c

/-- The loop over the messages of a chunk, up to the `await` of the first one. A message
that cannot be logged ends the loop. -/
def processMessages (c : ℕ) : List Message → AcceptorM Unit
  | [] => pure ()
  | m :: rest =>
    if m.hasField Fields.msgType then
      match m.toString with
      | .error e => handleDataError e c
      | .ok _ => do
        observe (.processing c m)
        if m.getField Fields.msgType = MsgType.logon then validateLogon c m rest
        else handleNonLogonMessage c m rest
    else suspend (.nextMessage c rest)

end NestQuickfix.Acceptor
