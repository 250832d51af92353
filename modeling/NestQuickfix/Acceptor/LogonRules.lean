import NestQuickfix.Acceptor.MessageHandler
import NestQuickfix.Lib.Acts

/-!
# Which Logons are accepted

The verdict of `validateLogon` as a function of the configuration, the message and the answers of
the two callbacks, and the rules it should follow. The comparison with the configured
TargetCompID knows no wildcard, though the configuration documents one.
-/

namespace NestQuickfix.Acceptor

open Lib Lib.Exec

/-- The callbacks of `config.auth`, with what their promises settle with. -/
structure Auth where
  validateCredentials : Message → Except JSError Bool
  getAllowedSenderCompIds : Value → Except JSError (List Value)

/-- `validateAuthentication` after `validateCredentials` has accepted the message. -/
def Auth.checkSenderCompId (auth : Auth) (m : Message) : LogonVerdict :=
  match auth.getAllowedSenderCompIds (m.getField Fields.account) with
  | .error e => .thrown e
  | .ok allowedSenderCompIds =>
    if m.getField Fields.senderCompID ∈ allowedSenderCompIds then .valid
    else .invalid (js "Invalid sender comp ID")

/-- `validateAuthentication`. -/
def Auth.validateAuthentication (auth : Auth) (m : Message) : LogonVerdict :=
  match auth.validateCredentials m with
  | .error e => .thrown e
  | .ok isValid =>
    if isValid then auth.checkSenderCompId m else .invalid (js "Invalid credentials")

/-- `validateLogon` with all its `await`s. -/
def AcceptorConfig.validateLogon (config : AcceptorConfig) (auth : Auth) (m : Message) :
    LogonVerdict :=
  match m.requireFields logonFields with
  | .error e => .thrown e
  | .ok () =>
    if m.getField Fields.targetCompID ≠ config.targetCompID then
      .invalid (js "Invalid TargetCompID")
    else if config.auth then auth.validateAuthentication m
    else .valid

/-! ## The verdict in the acceptor -/

/-- The verdict to which a suspended validation leads. -/
def Frame.verdict (auth : Auth) : Frame → Option LogonVerdict
  | .validateCredentials _ m _ => some (auth.validateAuthentication m)
  | .getAllowedSenderCompIds _ m _ => some (auth.checkSenderCompId m)
  | .validated _ _ _ verdict => some verdict
  | _ => none

/-- Code that suspends one task, which leads to a verdict. -/
def LeadsTo (auth : Auth) (verdict : LogonVerdict) (st : AcceptorState) (x : AcceptorM Unit) :
    Prop :=
  ∃ frame, x.after st = { st with tasks := st.tasks ++ [frame] } ∧
    frame.verdict auth = some verdict

variable {auth : Auth} {st : AcceptorState} {c : ℕ} {m : Message} {rest : List Message}

/-- The validation begins with a task that leads to the verdict. -/
theorem leadsTo_validateLogon :
    LeadsTo auth (st.config.validateLogon auth m) st (validateLogon c m rest) := by
  unfold LeadsTo validateLogon AcceptorConfig.validateLogon
  rw [after_bind_of_ok (result_get st)]
  cases m.requireFields logonFields with
  | error e => exact ⟨_, rfl, rfl⟩
  | ok _ =>
    dsimp only
    split
    · exact ⟨_, rfl, rfl⟩
    · split
      · exact ⟨_, rfl, rfl⟩
      · exact ⟨_, rfl, rfl⟩

/-- The answer of `validateCredentials` leads on to the verdict. -/
theorem leadsTo_afterValidateCredentials
    (h : auth.validateCredentials m = st.input.settled.map fun _ => st.input.credentials) :
    LeadsTo auth (auth.validateAuthentication m) st (afterValidateCredentials c m rest) := by
  unfold LeadsTo afterValidateCredentials Auth.validateAuthentication
  rw [after_bind_of_ok (result_get st), h]
  cases st.input.settled with
  | error e => exact ⟨_, rfl, rfl⟩
  | ok _ =>
    dsimp only [Except.map]
    split
    · exact ⟨_, rfl, rfl⟩
    · exact ⟨_, rfl, rfl⟩

/-- The answer of `getAllowedSenderCompIds` gives the verdict. -/
theorem leadsTo_afterGetAllowedSenderCompIds
    (h : auth.getAllowedSenderCompIds (m.getField Fields.account) =
      st.input.settled.map fun _ => st.input.allowedSenderCompIds) :
    LeadsTo auth (auth.checkSenderCompId m) st (afterGetAllowedSenderCompIds c m rest) := by
  unfold LeadsTo afterGetAllowedSenderCompIds Auth.checkSenderCompId
  rw [after_bind_of_ok (result_get st), h]
  cases st.input.settled with
  | error e => exact ⟨_, rfl, rfl⟩
  | ok _ =>
    dsimp only [Except.map]
    split
    · exact ⟨_, rfl, rfl⟩
    · exact ⟨_, rfl, rfl⟩

/-- `validateLogon` comes to its verdict in the acceptor: its first part and the parts behind its
two `await`s all lead on to it, when the callbacks answer like `auth`. -/
structure ComesToVerdict (config : AcceptorConfig) (auth : Auth) (m : Message) : Prop where
  begins : ∀ st c rest, st.config = config →
    LeadsTo auth (config.validateLogon auth m) st (validateLogon c m rest)
  afterCredentials : ∀ st c rest,
    auth.validateCredentials m = st.input.settled.map (fun _ => st.input.credentials) →
      LeadsTo auth (auth.validateAuthentication m) st (afterValidateCredentials c m rest)
  afterAllowed : ∀ st c rest, auth.getAllowedSenderCompIds (m.getField Fields.account) =
      st.input.settled.map (fun _ => st.input.allowedSenderCompIds) →
    LeadsTo auth (auth.checkSenderCompId m) st (afterGetAllowedSenderCompIds c m rest)

theorem comesToVerdict (config : AcceptorConfig) (auth : Auth) (m : Message) :
    ComesToVerdict config auth m where
  begins := by
    rintro st c rest rfl
    exact leadsTo_validateLogon
  afterCredentials := fun _ _ _ => leadsTo_afterValidateCredentials
  afterAllowed := fun _ _ _ => leadsTo_afterGetAllowedSenderCompIds

/-! ## The rules -/

/-- The wildcard that the configuration documents. -/
def wildcard : Value := .str (js "*")

/-- The rules for a Logon. -/
structure AcceptorConfig.Admits (config : AcceptorConfig) (auth : Auth) (m : Message) : Prop where
  fields : ∀ field ∈ [Fields.senderCompID, Fields.targetCompID, Fields.heartBtInt,
    Fields.encryptMethod], m.hasField field = true
  targetCompID : m.getField Fields.targetCompID = config.targetCompID ∨
    config.targetCompID = wildcard
  credentials : config.auth = true → auth.validateCredentials m = .ok true
  senderCompID : config.auth = true → ∃ allowedSenderCompIds,
    auth.getAllowedSenderCompIds (m.getField Fields.account) = .ok allowedSenderCompIds ∧
      m.getField Fields.senderCompID ∈ allowedSenderCompIds

theorem validateAuthentication_eq_valid_iff : auth.validateAuthentication m = .valid ↔
    auth.validateCredentials m = .ok true ∧ ∃ allowedSenderCompIds,
      auth.getAllowedSenderCompIds (m.getField Fields.account) = .ok allowedSenderCompIds ∧
        m.getField Fields.senderCompID ∈ allowedSenderCompIds := by
  unfold Auth.validateAuthentication Auth.checkSenderCompId
  cases auth.validateCredentials m with
  | error e => simp
  | ok isValid =>
    cases isValid with
    | false => simp
    | true =>
      cases auth.getAllowedSenderCompIds (m.getField Fields.account) with
      | error e => simp
      | ok allowedSenderCompIds =>
        by_cases hmem : m.getField Fields.senderCompID ∈ allowedSenderCompIds
        · simp [hmem]
        · simp [hmem]

/-- The verdict compares the TargetCompID with the configured one as it is. -/
theorem validateLogon_eq_valid_iff {config : AcceptorConfig} :
    config.validateLogon auth m = .valid ↔ m.requireFields logonFields = .ok () ∧
      m.getField Fields.targetCompID = config.targetCompID ∧
        (config.auth = true → auth.validateAuthentication m = .valid) := by
  unfold AcceptorConfig.validateLogon
  cases m.requireFields logonFields with
  | error e => simp
  | ok _ =>
    by_cases htarget : m.getField Fields.targetCompID = config.targetCompID
    · by_cases hauth : config.auth = true
      · simp [htarget, hauth]
      · simp [htarget, hauth]
    · simp [htarget]

/-- A Logon follows the rules if it is valid but for a TargetCompID under the wildcard. -/
theorem admits_iff {config : AcceptorConfig} :
    config.Admits auth m ↔ m.requireFields logonFields = .ok () ∧
      (m.getField Fields.targetCompID = config.targetCompID ∨ config.targetCompID = wildcard) ∧
        (config.auth = true → auth.validateAuthentication m = .valid) := by
  rw [Message.requireFields_eq_ok_iff, validateAuthentication_eq_valid_iff]
  constructor
  · intro h
    exact ⟨h.fields, h.targetCompID, fun hauth => ⟨h.credentials hauth, h.senderCompID hauth⟩⟩
  · rintro ⟨hfields, htarget, hauth⟩
    exact ⟨hfields, htarget, fun h => (hauth h).1, fun h => (hauth h).2⟩

/-- The condition: where the configuration has the wildcard, the message has it too, or fails a
check that does not depend on it. -/
def AcceptorConfig.SpellsOut (config : AcceptorConfig) (auth : Auth) (m : Message) : Prop :=
  config.targetCompID = wildcard → m.getField Fields.targetCompID = wildcard ∨
    m.requireFields logonFields ≠ .ok () ∨
      config.auth = true ∧ auth.validateAuthentication m ≠ .valid

/-- `validateLogon` comes to a verdict, and it accepts exactly the Logons that follow the rules, if
and only if no wildcard decides. -/
theorem validateLogon_admits_iff (config : AcceptorConfig) (auth : Auth) (m : Message) :
    ((config.validateLogon auth m = .valid ↔ config.Admits auth m) ↔
      config.SpellsOut auth m) ∧ ComesToVerdict config auth m := by
  refine ⟨?_, comesToVerdict config auth m⟩
  rw [validateLogon_eq_valid_iff, admits_iff, AcceptorConfig.SpellsOut]
  by_cases hwildcard : config.targetCompID = wildcard
  · by_cases htarget : m.getField Fields.targetCompID = wildcard
    · simp [hwildcard, htarget]
    · -- The verdict is invalid, so the rules have to forbid the Logon on other grounds.
      simp only [hwildcard, htarget, or_true, true_and, false_and, and_false, false_iff,
        not_and, forall_const, false_or, ne_eq, Classical.not_imp]
      tauto
  · simp [hwildcard]

/-- The configuration of an acceptor with the wildcard and without authentication. -/
def anyTarget : AcceptorConfig := ⟨wildcard, .str (js "FIX.4.4"), false, 0, []⟩

/-- The Logon of a client. -/
def clientLogon : Message := Message.ofStrings [(8, js "FIX.4.4"), (35, js "A"), (49, js "CLIENT"),
  (56, js "BROKER"), (34, js "1"), (52, js "20250101-00:00:00"), (98, js "0"), (108, js "30")]

/-- Callbacks that accept every message and no SenderCompID. -/
def silentAuth : Auth := ⟨fun _ => .ok true, fun _ => .ok []⟩

/-- The rules admit the Logon under the wildcard, and it is refused. -/
theorem not_validateLogon_anyTarget :
    anyTarget.validateLogon silentAuth clientLogon = .invalid (js "Invalid TargetCompID") ∧
      anyTarget.Admits silentAuth clientLogon ∧
      ¬ (anyTarget.validateLogon silentAuth clientLogon = .valid ↔
        anyTarget.Admits silentAuth clientLogon) := by
  have hverdict : anyTarget.validateLogon silentAuth clientLogon =
      .invalid (js "Invalid TargetCompID") := rfl
  have hadmits : anyTarget.Admits silentAuth clientLogon :=
    ⟨by decide +kernel, Or.inr rfl, fun h => absurd h (by decide), fun h => absurd h (by decide)⟩
  refine ⟨hverdict, hadmits, fun h => ?_⟩
  have hvalid := h.mpr hadmits
  rw [hverdict] at hvalid
  cases hvalid

end NestQuickfix.Acceptor
