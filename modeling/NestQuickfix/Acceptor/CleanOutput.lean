import NestQuickfix.Acceptor.OutgoingSides
import NestQuickfix.Acceptor.Settling
import NestQuickfix.Message.CleanValues

/-!
# What peers cannot break

The acceptor copies values of its peers into what it writes: CompIDs into every message of a
session and into refusals, a TestReqID into its answer. The parser lets no separator into
such a value. As long as the application hands over clean values, whatever bytes peers send,
each connection carries messages that are read back one by one with the fields they were
written with.
-/

namespace NestQuickfix

open Lib

/-! ## Clean sends -/

/-- The values of a configuration that a session writes are clean. -/
structure SessionConfig.Clean (config : SessionConfig) : Prop where
  senderCompId : config.senderCompId.Clean
  targetCompId : config.targetCompId.Clean
  beginString : config.beginString.Clean

instance (config : SessionConfig) : Decidable config.Clean :=
  decidable_of_iff (config.senderCompId.Clean ∧ config.targetCompId.Clean ∧
    config.beginString.Clean) ⟨fun h => ⟨h.1, h.2.1, h.2.2⟩, fun h => ⟨h.1, h.2, h.3⟩⟩

/-- A value that is clean unless it is left out. -/
def Value.CleanIfSet (v : Value) : Prop := v.truthy = true → v.Clean

instance (v : Value) : Decidable v.CleanIfSet :=
  inferInstanceAs (Decidable (v.truthy = true → v.Clean))

variable {config : SessionConfig} {m : Message} {v : Value}

theorem cleanEntry_tag (n : ℕ) (hv : v.Clean) : CleanEntry (.tag n, v) :=
  ⟨⟨n, rfl⟩, Or.inr (Or.inr hv)⟩

theorem cleanFields_logonMessage (heartBtInt encryptMethod : Number) (resetSeqNum : Bool) :
    (logonMessage heartBtInt encryptMethod resetSeqNum).CleanFields := by
  have hfields : (Message.empty.setFields [(Fields.msgType, MsgType.logon),
      (Fields.heartBtInt, .num heartBtInt),
      (Fields.encryptMethod, .num encryptMethod)]).CleanFields := by
    refine Message.cleanFields_empty.setFields fun f hf => ?_
    simp only [List.mem_cons, List.not_mem_nil, or_false] at hf
    rcases hf with rfl | rfl | rfl
    · exact cleanEntry_tag 35 (by decide)
    · exact cleanEntry_tag 108 (clean_num heartBtInt)
    · exact cleanEntry_tag 98 (clean_num encryptMethod)
  unfold logonMessage
  dsimp only
  split
  · exact hfields.setField (f := (_, _)) (cleanEntry_tag 141 (by decide))
  · exact hfields

theorem cleanFields_logoutMessage (hv : v.CleanIfSet) : (logoutMessage v).CleanFields := by
  have htype : (Message.empty.setFields [(Fields.msgType, MsgType.logout)]).CleanFields := by decide
  unfold logoutMessage
  dsimp only
  split
  · next hset => exact htype.setField (f := (_, _)) (cleanEntry_tag 58 (hv hset))
  · exact htype

theorem cleanFields_heartbeatMessage (hv : v.CleanIfSet) : (heartbeatMessage v).CleanFields := by
  have htype : (Message.empty.setFields [(Fields.msgType, MsgType.heartbeat)]).CleanFields := by
    decide
  unfold heartbeatMessage
  dsimp only
  split
  · next hset => exact htype.setField (f := (_, _)) (cleanEntry_tag 112 (hv hset))
  · exact htype

theorem Message.CleanFields.setMissing {fs : List Field} (h : m.CleanFields)
    (hfs : ∀ f ∈ fs, CleanEntry f) : (m.setMissing fs).CleanFields := by
  induction fs generalizing m with
  | nil => exact h
  | cons f fs ih =>
    have hrest : ∀ g ∈ fs, CleanEntry g := fun g hg => hfs g (List.mem_cons_of_mem f hg)
    rw [Message.setMissing]
    split
    · exact ih h hrest
    · exact ih (h.setField (hfs f List.mem_cons_self)) hrest

/-- What a session writes of a clean message. -/
theorem cleanFields_of_written {seqNum : ℕ} {env : SendEnv} {written : Message} {raw : JSString}
    (hconfig : config.Clean) (htime : CleanText env.sendingTime) (hm : m.CleanFields)
    (h : (sendMessage config seqNum env m).written = some (written, raw)) :
    written.CleanFields ∧ written.toString = .ok raw := by
  have hfields : ∀ f ∈ sessionFields config seqNum env.sendingTime, CleanEntry f := by
    intro f hf
    simp only [sessionFields, List.mem_cons, List.not_mem_nil, or_false] at hf
    rcases hf with rfl | rfl | rfl | rfl | rfl
    · exact cleanEntry_tag 8 hconfig.beginString
    · exact cleanEntry_tag 34 (clean_num _)
    · exact cleanEntry_tag 49 hconfig.senderCompId
    · exact cleanEntry_tag 52 htime
    · exact cleanEntry_tag 56 hconfig.targetCompId
  obtain ⟨rfl, hraw⟩ := of_written h
  exact ⟨(hm.setMissing hfields).createReverse, hraw⟩

/-- A message of clean values is encoded if it has the required fields. -/
theorem toString_of_cleanFields (hm : m.CleanFields)
    (hrequired : ∀ t ∈ Message.requiredFields, m.hasField t = true) :
    m.toString = .ok m.wireText := by
  have hprintable : ∀ w : Value, w.Clean → w.Printable := by
    intro w hw
    cases w with
    | other printed =>
      cases printed with
      | none => exact absurd rfl hw.1
      | some _ => rfl
    | _ => rfl
  refine Message.toString_eq_ok_iff.mpr ⟨hrequired,
    hprintable _ (hm.clean_getField (by decide) (by decide)), fun f hf => ?_, rfl⟩
  obtain ⟨_, h9, h10⟩ := Message.key_of_mem_bodyFields hf
  have hwire : f ∈ m.wireFields := by
    simp [Message.wireFields, hf]
  rcases (hm f ((Message.mem_wireFields_iff hrequired h9 h10).mp hwire)).2 with heq | heq | hclean
  · exact absurd heq h9
  · exact absurd heq h10
  · exact hprintable _ hclean

end NestQuickfix

namespace NestQuickfix.Acceptor

open Lib Lib.Exec

/-! ## What is written -/

/-- Whether something is handed to a socket. -/
def Observation.isOutput : Observation → Bool
  | .wrote .. | .refused .. => true
  | _ => false

/-- The text that is handed to a socket. -/
def Observation.text : Observation → JSString
  | .wrote _ _ raw | .refused _ raw => raw
  | _ => []

/-- The message whose text is handed to a socket. -/
inductive Observation.Shows (config : AcceptorConfig) : Observation → Message → Prop
  | wrote {s : ℕ} {m : Message} {raw : JSString} (h : m.toString = .ok raw) :
    Shows config (.wrote s m raw) m
  | refused {c : ℕ} {m : Message} {sendingTime reason raw : JSString}
    (h : (createLogoutMessage config sendingTime m reason).toString = .ok raw) :
    Shows config (.refused c raw) (createLogoutMessage config sendingTime m reason)

/-- The socket that something is handed to. -/
def AcceptorState.recipient (st : AcceptorState) : Observation → Option ℕ
  | .wrote s _ _ => some (st.sessions s).socket
  | .refused c _ => some c
  | _ => none

/-- What is handed to a socket, in order. -/
def AcceptorState.outputTo (st : AcceptorState) (c : ℕ) : List Observation :=
  st.trace.filter fun o => st.recipient o = some c

/-! ## What the application hands over -/

/-- A task that waits for a callback of the authentication. -/
def Frame.authenticates : Frame → Bool
  | .validateCredentials .. | .getAllowedSenderCompIds .. => true
  | _ => false

/-- What a call of a user hands over, and the error of a callback, is clean as far as it
may be written. -/
def Event.Clean (st : AcceptorState) (error : Option JSError) : Event → Prop
  | .send _ m => m.CleanFields
  | .logout _ reason => reason.CleanIfSet
  | .handleMessage _ m => (m.getField Fields.testReqID).CleanIfSet
  | .newSession config _ | .createSession config _ => config.Clean
  | .resume i => ∀ frame ∈ st.tasks[i]?, frame.authenticates = true →
      ∀ e ∈ error, (Value.str e).CleanIfSet
  | _ => True

instance (st : AcceptorState) (error : Option JSError) : ∀ e, Decidable (Event.Clean st error e)
  | .send _ m => inferInstanceAs (Decidable m.CleanFields)
  | .logout _ reason => inferInstanceAs (Decidable reason.CleanIfSet)
  | .handleMessage _ m => inferInstanceAs (Decidable (m.getField Fields.testReqID).CleanIfSet)
  | .newSession config _ => inferInstanceAs (Decidable config.Clean)
  | .createSession config _ => inferInstanceAs (Decidable config.Clean)
  | .resume i => inferInstanceAs (Decidable (∀ frame ∈ st.tasks[i]?, frame.authenticates = true →
      ∀ e ∈ error, (Value.str e).CleanIfSet))
  | .connect _ | .data .. | .socketError .. | .close _ | .nextListener | .heartbeat _ | .reject ..
  | .join .. | .leave .. | .registerHandlers .. | .stop | .closeAll | .registerSession _
  | .removeSession _ =>
    inferInstanceAs (Decidable True)

/-- The application hands over clean values: the time it reads and what it calls with. -/
def HandsClean (st : AcceptorState) (e : Step) : Prop :=
  CleanText e.input.sendingTime ∧ e.event.Clean st e.input.settledError

instance : ∀ (st : AcceptorState) (e : Step), Decidable (HandsClean st e) := fun st e =>
  inferInstanceAs (Decidable (_ ∧ e.event.Clean st _))

/-! ## What the acceptor holds -/

/-- The messages of the chunk that are still to come. -/
def Origin.rest : Origin → List Message
  | .chunk _ rest _ => rest
  | .user => []

/-- The messages of peers that a task still reads from. -/
def Frame.messages : Frame → List Message
  | .nextMessage _ rest | .closeDelay _ rest => rest
  | .validateCredentials _ m rest | .getAllowedSenderCompIds _ m rest | .validated _ m rest _
  | .created _ _ m rest | .handlersSet _ _ m rest => m :: rest
  | .logonResponse origin .. | .testRequestReply origin .. | .messageHandlers origin ..
  | .handlerPending origin .. => origin.rest
  | _ => []

/-- The reason that a task gives for a refusal. -/
def Frame.reason : Frame → Value
  | .validated _ _ _ (.thrown e) => .str e
  | .validated _ _ _ (.invalid reason) => .str reason
  | _ => .undefined

/-- All that a task may still write is clean. -/
structure Frame.Clean (frame : Frame) : Prop where
  messages : ∀ m ∈ frame.messages, m.CleanValues
  reason : frame.reason.CleanIfSet

/-- All that the acceptor may still write is clean, and so is what it has written. -/
structure Tidy (st : AcceptorState) : Prop where
  beginString : st.config.beginString.Clean
  sendingTime : CleanText st.input.sendingTime
  sessions : ∀ s, (st.sessions s).config.Clean
  tasks : ∀ frame ∈ st.tasks, frame.Clean
  output : ∀ o ∈ st.trace, o.isOutput = true → ∃ m, o.Shows st.config m ∧ m.CleanFields

/-- An act that adds clean data only. -/
def Act.Tidy (config : AcceptorConfig) : Act → Prop
  | .observe o => o.isOutput = true → ∃ m, o.Shows config m ∧ m.CleanFields
  | .suspend frame => frame.Clean
  | .create sessionConfig _ => sessionConfig.Clean
  | _ => True

variable {st st' : AcceptorState} {e : Step} {a : Act} {A : Set Act} {s c x : ℕ} {m : Message}
  {rest ms : List Message} {origin : Origin} {frame : Frame} {reason : JSString} {v : Value}
  {config : AcceptorConfig} {α β : Type}

/-! ## Acts -/

/-- The clock of a step does not go on. -/
theorem sendingTime_apply (a : Act) (st : AcceptorState) :
    (a.apply st).input.sendingTime = st.input.sendingTime := by
  cases a with
  | remove id =>
    exact withoutEntry_congr st id (f := fun st => st.input.sendingTime) fun _ _ => rfl
  | removeId y =>
    exact withoutEnded_congr st y (f := fun st => st.input.sendingTime) fun _ _ => rfl
  | settleCloseAll k result =>
    exact settled_congr st k result (f := fun st => st.input.sendingTime) fun _ _ => rfl
  | _ => rfl

theorem Frame.Clean.of_messages (hreason : frame.reason = .undefined)
    (h : ∀ m ∈ frame.messages, m.CleanValues) : frame.Clean := by
  refine ⟨h, fun hset => ?_⟩
  rw [hreason] at hset
  cases hset

/-- A task that holds no messages of peers. -/
theorem Frame.Clean.of_nil (hreason : frame.reason = .undefined) (h : frame.messages = []) :
    frame.Clean :=
  .of_messages hreason fun m hm => by
    rw [h] at hm
    cases hm

theorem Tidy.apply (h : Tidy st) (ha : a.Tidy st.config) : Tidy (a.apply st) := by
  have hconfig : (a.apply st).config = st.config := config_apply a st
  refine ⟨hconfig ▸ h.beginString, (sendingTime_apply a st) ▸ h.sendingTime, fun s => ?_,
    fun frame hframe => ?_, fun o ho hout => ?_⟩
  · have hs := h.sessions s
    rw [sessions_apply_eq]
    cases a with
    | create sessionConfig c =>
      simp only [Act.onSession]
      split
      · exact ha
      · exact hs
    | addHandlers y metadata =>
      simp only [Act.onSession, Session.withHandlers]
      split
      · split <;> exact hs
      · exact hs
    | _ => first | exact hs | (simp only [Act.onSession]; split <;> exact hs)
  · rcases mem_tasks_apply hframe with hold | rfl | ⟨k, stopping, rfl⟩
    · exact h.tasks frame hold
    · exact ha
    · exact .of_nil rfl rfl
  · rw [hconfig]
    cases hobserves : a.observes with
    | false =>
      rw [trace_apply hobserves] at ho
      exact h.output o ho hout
    | true =>
      cases a with
      | observe o' =>
        rcases List.mem_append.mp ho with hold | hnew
        · exact h.output o hold hout
        · obtain rfl := List.mem_singleton.mp hnew
          exact ha hout
      | disconnect y =>
        rcases List.mem_append.mp ho with hold | hnew
        · exact h.output o hold hout
        · obtain rfl := List.mem_singleton.mp hnew
          cases hout
      | _ => cases hobserves

/-- From a state on, code whose acts add clean data only. -/
theorem tidy_of_performs {y : AcceptorM α} (hy : Performs A st y)
    (hA : ∀ a ∈ A, a.Tidy st.config) (h : Tidy st) : Tidy (y.after st) := by
  refine (hy.keeps (P := fun st1 => Tidy st1 ∧ st1.config = st.config) ?_ ⟨h, rfl⟩).1
  rintro st1 a _ ha ⟨h1, hconfig⟩
  exact ⟨h1.apply (hconfig ▸ hA a ha), (config_apply a st1).trans hconfig⟩

theorem tidy_observe {o : Observation} (ho : o.isOutput = false) :
    (Act.observe o).Tidy config := fun hout => by
  rw [ho] at hout
  cases hout

theorem tidy_tearDown {p : Prop} (ha : a ∈ tearDownActs x p) : a.Tidy config := by
  rcases ha with (rfl | rfl | rfl | ⟨_, rfl⟩) | ⟨_, rfl | rfl⟩
  on_goal 3 => exact tidy_observe rfl
  all_goals trivial

theorem tidy_ran {kind : HandlerKind} (ha : a ∈ ranActs x kind) : a.Tidy config := by
  rcases ha with rfl | rfl
  · exact tidy_observe rfl
  · trivial

theorem tidy_emit {event : SessionEvent} (ha : a ∈ emitActs x event) : a.Tidy config := by
  rcases ha with rfl | rfl
  · exact tidy_observe rfl
  · trivial

theorem tidy_settleLogout {caller : LogoutCaller} {result : Except JSError Unit}
    (ha : a ∈ settleLogoutActs caller result) : a.Tidy config := by
  cases caller with
  | user => cases ha
  | registration y dropped =>
    obtain rfl := Set.mem_singleton_iff.mp ha
    exact .of_nil rfl rfl
  | closeAll k =>
    obtain rfl := Set.mem_singleton_iff.mp ha
    trivial

theorem tidy_finish (ha : a ∈ finishActs st x) : a.Tidy config := by
  rcases ha with ⟨_, rfl⟩ | ⟨_, rfl⟩
  · trivial
  · exact tidy_observe rfl

theorem tidy_failWrite (ha : a ∈ failWriteActs c) : a.Tidy config := by
  rcases ha with rfl | ⟨_, rfl⟩ | ⟨_, rfl⟩
  · trivial
  · exact tidy_observe rfl
  · exact tidy_observe rfl

theorem tidy_settleMessage (horigin : ∀ m ∈ origin.rest, m.CleanValues)
    (ha : a ∈ settleMessageActs origin) : a.Tidy config := by
  cases origin with
  | user => cases ha
  | chunk c rest logon =>
    rcases ha with rfl | rfl
    · trivial
    · exact .of_messages rfl horigin

theorem tidy_runMessageHandlers (horigin : ∀ m ∈ origin.rest, m.CleanValues)
    (ha : a ∈ runMessageHandlersActs origin x m) : a.Tidy config := by
  rcases ha with ha | rfl | ⟨_, rfl⟩ | ⟨_, rfl⟩
  · exact tidy_settleMessage horigin ha
  · trivial
  · exact tidy_observe rfl
  · exact .of_messages rfl horigin

theorem tidy_handleLogout (ha : a ∈ handleLogoutActs st x) : a.Tidy config := by
  rcases ha with ((ha | ha) | rfl) | ha
  · exact tidy_ran ha
  · exact tidy_emit ha
  · trivial
  · exact tidy_tearDown ha

/-- Listeners of a `close` event write nothing. -/
theorem tidy_nextListener (ha : a ∈ nextListenerActs st) : a.Tidy config := by
  unfold nextListenerActs at ha
  split at ha
  · cases ha
  · obtain rfl := Set.mem_singleton_iff.mp ha
    trivial
  · next c listener listeners _ =>
    rcases ha with ha | rfl | rfl | ⟨_, rfl⟩
    · cases listener with
      | acceptor =>
        rcases ha with rfl | ⟨_, _, _, ha⟩
        · trivial
        · exact tidy_tearDown ha
      | session x => exact tidy_tearDown ha
    · trivial
    · trivial
    · exact tidy_observe rfl

/-! ## Sessions -/

/-- Code that keeps all that may be written clean. -/
abbrev Tidies (x : AcceptorM α) : Prop := Exec.Keeps Tidy x

/-- Code whose acts add clean data only. -/
theorem tidies_of_performs {y : AcceptorM α} {A : AcceptorState → Set Act}
    (hy : ∀ st, Performs (A st) st y) (hA : ∀ st, ∀ a ∈ A st, a.Tidy st.config) : Tidies y :=
  .of_after fun st h => tidy_of_performs (hy st) (hA st) h

theorem tidies_suspend (hframe : frame.Clean) : Tidies (suspend frame) :=
  .of_after fun _ h => h.apply (a := .suspend frame) hframe

theorem tidies_observe {o : Observation} (ho : o.isOutput = false) : Tidies (observe o) :=
  .of_after fun _ h => h.apply (tidy_observe ho)

theorem tidies_setState (s : ℕ) (state : SessionState) :
    Tidies (updateSession s fun x => { x with state := state }) :=
  .of_after fun _ h => h.apply (a := .setState s state) trivial

theorem tidies_destroy (c : ℕ) : Tidies (destroy c) :=
  .of_after fun _ h => h.apply (a := .destroy c) trivial

/-- Sending a clean message. -/
theorem tidies_startSend (s : ℕ) (hm : m.CleanFields) : Tidies (startSend s m) := by
  refine .of_after fun st h => ?_
  have hcount : Tidy ((Act.count s).apply st) := h.apply (a := .count s) trivial
  rw [after_startSend]
  cases hw : (sendMessage (st.sessions s).config (st.sessions s).nextOutgoingSeqNum (st.sendEnv s)
    m).written with
  | none => exact hcount
  | some w =>
    obtain ⟨written, raw⟩ := w
    obtain ⟨hclean, hraw⟩ := cleanFields_of_written (h.sessions s) h.sendingTime hm hw
    exact hcount.apply (a := .observe (.wrote s written raw)) fun _ =>
      ⟨written, .wrote hraw, hclean⟩

theorem tidies_heartbeat (s : ℕ) : Tidies (heartbeat s) := by
  refine keeps_get_bind fun st _ => ?_
  split
  · exact .bind (tidies_startSend s (cleanFields_heartbeatMessage nofun)) fun _ => .pure fun _ => id
  · exact .pure fun _ => id

theorem tidies_logout (s : ℕ) (hv : v.CleanIfSet) (caller : LogoutCaller) :
    Tidies (logout s v caller) := by
  refine keeps_get_bind fun st _ => ?_
  split
  · exact tidies_of_performs (fun _ => performs_settleLogout fun _ => id) fun _ _ ha =>
      tidy_settleLogout ha
  · exact .bind (tidies_setState s .loggingOut) fun _ =>
      .bind (tidies_startSend s (cleanFields_logoutMessage hv)) fun _ =>
        tidies_suspend (.of_nil rfl rfl)

theorem tidies_registerSession (s : ℕ) (dropped : Bool) : Tidies (registerSession s dropped) := by
  refine keeps_get_bind fun st _ => ?_
  split
  · exact tidies_of_performs (fun _ => performs_finishRegistration s dropped fun _ => id)
      fun _ _ ha => tidy_finish ha
  · exact tidies_logout _ (fun _ => by decide) _

theorem tidies_closeAll (stopping : Bool) : Tidies (closeAll stopping) := by
  refine keeps_get_bind fun st _ => .bind (Q := fun _ => Tidy) (.modify fun st h => ?_) fun _ => ?_
  · exact ⟨h.beginString, h.sendingTime, h.sessions, h.tasks, h.output⟩
  · split
    · exact tidies_suspend (.of_nil rfl rfl)
    · exact .forEach _ fun s => tidies_logout s (v := .undefined) nofun _

theorem tidies_startLogon (s : ℕ) (m : Message) (horigin : ∀ m ∈ origin.rest, m.CleanValues) :
    Tidies (startLogon origin s m) := by
  refine .bind (tidies_setState s .loggedOn) fun _ => .bind (Q := fun _ => Tidy) ?_ fun _ =>
    tidies_suspend (.of_messages rfl horigin)
  refine keeps_get_bind fun st _ => .bind (tidies_startSend s (cleanFields_logonMessage _ _ _))
    fun error => ?_
  cases error with
  | none => exact .bind (tidies_observe rfl) fun _ => .pure fun _ => id
  | some err => exact .pure fun _ => id

/-- What a session copies into a reply is the TestReqID. -/
theorem tidies_handleMessage (origin : Origin) (s : ℕ)
    (horigin : ∀ m ∈ origin.rest, m.CleanValues)
    (hm : (m.getField Fields.testReqID).CleanIfSet) : Tidies (handleMessage origin s m) := by
  unfold handleMessage
  split
  · exact tidies_startLogon s m horigin
  · split
    · have hlogout : Tidies (handleLogout s) :=
        tidies_of_performs (fun _ => performs_handleLogout s fun _ => id) fun _ _ ha =>
          tidy_handleLogout ha
      refine .bind hlogout.attempt fun result => ?_
      cases result with
      | ok _ => exact tidies_suspend (.of_messages rfl horigin)
      | error err =>
        exact tidies_of_performs (fun _ => performs_settleMessage _ fun _ => id) fun _ _ ha =>
          tidy_settleMessage horigin ha
    · split
      · exact .bind (tidies_startSend s (cleanFields_heartbeatMessage hm)) fun _ =>
          tidies_suspend (.of_messages rfl horigin)
      · exact tidies_of_performs (fun _ => performs_runMessageHandlers 0 fun _ => id) fun _ _ ha =>
          tidy_runMessageHandlers horigin ha

/-! ## Refusals -/

theorem cleanFields_createLogoutMessage {sendingTime : JSString} (hbegin : config.beginString.Clean)
    (htime : CleanText sendingTime) (hm : m.CleanValues) (hreason : (Value.str reason).CleanIfSet) :
    (createLogoutMessage config sendingTime m reason).CleanFields := by
  refine (cleanFields_logoutMessage hreason).setFields fun f hf => ?_
  simp only [List.mem_cons, List.not_mem_nil, or_false] at hf
  rcases hf with rfl | rfl | rfl | rfl | rfl
  · exact cleanEntry_tag 49 (hm _)
  · exact cleanEntry_tag 56 (hm _)
  · exact cleanEntry_tag 8 hbegin
  · exact cleanEntry_tag 34 (clean_num _)
  · exact cleanEntry_tag 52 htime

/-- A refusal of clean values can be encoded, so nothing is thrown. -/
theorem tidies_refusal (c : ℕ) (hm : m.CleanValues) (hrest : ∀ m ∈ rest, m.CleanValues)
    (hreason : (Value.str reason).CleanIfSet) {f : Except JSError Unit → AcceptorM Unit}
    (hok : f (.ok ()) = pure ()) : Tidies (attempt (sendLogoutAndClose c m rest reason) >>= f) := by
  -- The Logout is encoded, so the branches for a failed refusal are not taken.
  refine .of_after fun st h => ?_
  have hclean : (createLogoutMessage st.config st.input.sendingTime m reason).CleanFields :=
    cleanFields_createLogoutMessage h.beginString h.sendingTime hm hreason
  have hraw := toString_of_cleanFields hclean fun t ht => hasField_createLogoutMessage ht
  have hrefused : Tidy ((Act.observe (.refused c _)).apply st) :=
    h.apply (a := .observe (.refused c _)) fun _ => ⟨_, .refused hraw, hclean⟩
  have hwrites : Tidies (failEndedWrite c) :=
    tidies_of_performs (fun _ => performs_failEndedWrite fun _ => id) fun _ _ => tidy_failWrite
  have hwritten := hwrites.after hrefused
  have hdelayed := hwritten.apply (a := .suspend (.closeDelay c rest)) (.of_messages rfl hrest)
  rw [after_refusal c m rest reason hok, hraw]
  exact hdelayed

/-! ## Validation and routing -/

/-- A task that goes on with a Logon that is validated. -/
theorem clean_valid (hm : m.CleanValues) (hrest : ∀ m ∈ rest, m.CleanValues) :
    (Frame.validated c m rest .valid).Clean :=
  ⟨List.forall_mem_cons.mpr ⟨hm, hrest⟩, nofun⟩

theorem clean_invalid (hm : m.CleanValues) (hrest : ∀ m ∈ rest, m.CleanValues)
    (hreason : (Value.str reason).CleanIfSet) :
    (Frame.validated c m rest (.invalid reason)).Clean :=
  ⟨List.forall_mem_cons.mpr ⟨hm, hrest⟩, hreason⟩

theorem clean_thrown {err : JSError} (hm : m.CleanValues) (hrest : ∀ m ∈ rest, m.CleanValues)
    (herror : (Value.str err).CleanIfSet) : (Frame.validated c m rest (.thrown err)).Clean :=
  ⟨List.forall_mem_cons.mpr ⟨hm, hrest⟩, herror⟩

theorem tidies_validateLogon (c : ℕ) (hm : m.CleanValues) (hrest : ∀ m ∈ rest, m.CleanValues) :
    Tidies (validateLogon c m rest) := by
  refine keeps_get_bind fun st _ => ?_
  split
  · next err herror =>
    obtain ⟨t, ht, _, rfl⟩ := Message.exists_of_requireFields_eq_error herror
    have hmissing : ∀ t ∈ logonFields, CleanText (js "Missing required field: " ++ t.text) := by
      decide
    exact tidies_suspend (clean_thrown hm hrest fun _ => hmissing t ht)
  · split
    · exact tidies_suspend (clean_invalid hm hrest (by decide))
    · split
      · exact tidies_suspend (.of_messages rfl (List.forall_mem_cons.mpr ⟨hm, hrest⟩))
      · exact tidies_suspend (clean_valid hm hrest)

theorem tidy_afterValidateCredentials (h : Tidy st) (hm : m.CleanValues)
    (hrest : ∀ m ∈ rest, m.CleanValues)
    (herror : ∀ err ∈ st.input.settledError, (Value.str err).CleanIfSet) :
    Tidy ((afterValidateCredentials c m rest).after st) := by
  unfold afterValidateCredentials
  rw [after_bind_of_ok (result_get st)]
  split
  · next err hsettled =>
    refine (tidies_suspend (clean_thrown hm hrest (herror err ?_))).after h
    rw [Input.settledError, hsettled]
    rfl
  · split
    · have hframe : (Frame.getAllowedSenderCompIds c m rest).Clean :=
        .of_messages rfl (List.forall_mem_cons.mpr ⟨hm, hrest⟩)
      exact (tidies_suspend hframe).after h
    · exact (tidies_suspend (clean_invalid hm hrest (by decide))).after h

theorem tidy_afterGetAllowedSenderCompIds (h : Tidy st) (hm : m.CleanValues)
    (hrest : ∀ m ∈ rest, m.CleanValues)
    (herror : ∀ err ∈ st.input.settledError, (Value.str err).CleanIfSet) :
    Tidy ((afterGetAllowedSenderCompIds c m rest).after st) := by
  unfold afterGetAllowedSenderCompIds
  rw [after_bind_of_ok (result_get st)]
  split
  · next err hsettled =>
    refine (tidies_suspend (clean_thrown hm hrest (herror err ?_))).after h
    rw [Input.settledError, hsettled]
    rfl
  · split
    · exact (tidies_suspend (clean_valid hm hrest)).after h
    · exact (tidies_suspend (clean_invalid hm hrest (by decide))).after h

/-- The session for a Logon writes the CompIDs of the Logon. -/
theorem tidies_createNewSession (c : ℕ) (hm : m.CleanValues) : Tidies (createNewSession c m) := by
  refine keeps_get_bind fun st h => .bind (Q := fun _ => Tidy) ?_ fun s =>
    .bind (tidies_registerSession s true) fun _ => .pure fun _ => id
  -- The CompIDs of the session are those of the Logon, present or not.
  exact .of_after fun st' h' => h'.apply (a := .create (buildSessionConfig st.config m) c)
    ⟨hm _, hm _, h.beginString⟩

theorem tidies_afterValidated (c : ℕ) {verdict : LogonVerdict}
    (hframe : (Frame.validated c m rest verdict).Clean) :
    Tidies (afterValidated c m rest verdict) := by
  obtain ⟨hm, hrest⟩ := List.forall_mem_cons.mp hframe.messages
  cases verdict with
  | thrown err => exact tidies_refusal c hm hrest hframe.reason rfl
  | invalid reason =>
    refine tidies_refusal c hm hrest ?_ rfl
    split
    · exact fun _ => by decide
    · exact hframe.reason
  | valid =>
    exact .bind (tidies_createNewSession c hm) fun s =>
      tidies_suspend (.of_messages rfl (List.forall_mem_cons.mpr ⟨hm, hrest⟩))

theorem tidies_handleNonLogonMessage (c : ℕ) (hm : m.CleanValues)
    (hrest : ∀ m ∈ rest, m.CleanValues) : Tidies (handleNonLogonMessage c m rest) := by
  refine keeps_get_bind fun st _ => ?_
  split
  · exact tidies_refusal c hm hrest (fun _ => by decide) rfl
  · exact .bind (tidies_observe rfl) fun _ =>
      tidies_handleMessage (.chunk c rest false) _ hrest fun _ => hm _

theorem tidies_processMessages (c : ℕ) (hms : ∀ m ∈ ms, m.CleanValues) :
    Tidies (processMessages c ms) := by
  cases ms with
  | nil => exact .pure fun _ => id
  | cons m rest =>
    obtain ⟨hm, hrest⟩ := List.forall_mem_cons.mp hms
    rw [processMessages]
    split
    · split
      · exact .bind (tidies_observe rfl) fun _ => tidies_destroy c
      · refine .bind (tidies_observe rfl) fun _ => ?_
        split
        · exact tidies_validateLogon c hm hrest
        · exact tidies_handleNonLogonMessage c hm hrest
    · exact tidies_suspend (.of_messages rfl hrest)

/-! ## Steps -/

/-- A task that goes on with acts which add clean data only. -/
theorem tidy_of_resumeActs (h : Tidy st) (hA : ∀ a ∈ resumeActs st frame, a.Tidy st.config) :
    Tidy ((resume frame).after st) :=
  tidy_of_performs (performs_resume fun _ => id) hA h

/-- Going on with a task. -/
theorem tidy_resume (h : Tidy st) (hframe : frame.Clean) (herror : frame.authenticates = true →
      ∀ err ∈ st.input.settledError, (Value.str err).CleanIfSet) :
    Tidy ((resume frame).after st) := by
  cases frame with
  | nextMessage c rest => exact (tidies_processMessages c hframe.messages).after h
  | validateCredentials c m rest =>
    obtain ⟨hm, hrest⟩ := List.forall_mem_cons.mp hframe.messages
    exact tidy_afterValidateCredentials h hm hrest (herror rfl)
  | getAllowedSenderCompIds c m rest =>
    obtain ⟨hm, hrest⟩ := List.forall_mem_cons.mp hframe.messages
    exact tidy_afterGetAllowedSenderCompIds h hm hrest (herror rfl)
  | validated c m rest verdict => exact (tidies_afterValidated c hframe).after h
  | handlersSet c s m rest =>
    obtain ⟨hm, hrest⟩ := List.forall_mem_cons.mp hframe.messages
    have hlisten : Tidies (setupDisconnectHandler c s) :=
      .of_after fun st h => h.apply (a := .listen c s) trivial
    have hhandle : Tidies (handleMessage (.chunk c rest true) s m) :=
      tidies_handleMessage (.chunk c rest true) s hrest fun _ => hm _
    exact (hlisten.bind fun _ => hhandle).after h
  | closeDelay c rest =>
    refine tidy_of_resumeActs h fun a ha => ?_
    rcases ha with rfl | rfl
    · trivial
    · exact .of_messages rfl hframe.messages
  | created c s m rest =>
    refine tidy_of_resumeActs h fun a ha => ?_
    rcases ha with ⟨_, _, rfl⟩ | rfl
    · trivial
    · exact .of_messages rfl hframe.messages
  | logonResponse origin s m error =>
    refine tidy_of_resumeActs h fun a ha => ?_
    rcases ha with (((ha | ha) | ha) | ha) | rfl | rfl
    · exact tidy_ran ha
    · exact tidy_ran ha
    · exact tidy_emit ha
    · exact tidy_settleMessage hframe.messages ha
    · trivial
    · exact .of_messages rfl hframe.messages
  | testRequestReply origin s m error =>
    refine tidy_of_resumeActs h fun a ha => ?_
    rcases ha with ha | rfl
    · exact tidy_settleMessage hframe.messages ha
    · exact .of_messages rfl hframe.messages
  | messageHandlers origin s m =>
    exact tidy_of_resumeActs h fun a ha => tidy_runMessageHandlers hframe.messages ha
  | handlerPending origin s m next =>
    exact tidy_of_resumeActs h fun a ha => tidy_runMessageHandlers hframe.messages ha
  | logoutSent s caller error =>
    refine tidy_of_resumeActs h fun a ha => ?_
    rcases ha with ((ha | ha) | ha) | ⟨_, ha, _⟩
    · exact tidy_emit ha
    · exact tidy_emit ha
    · exact tidy_tearDown ha
    · exact tidy_settleLogout ha
  | registration s dropped =>
    exact tidy_of_resumeActs h fun a ha => tidy_finish ha
  | allClosed k stopping =>
    refine tidy_of_resumeActs h fun a ha => ?_
    rcases ha with rfl | rfl
    · trivial
    · exact .of_nil rfl rfl
  | closeAllSockets =>
    refine tidy_of_resumeActs h fun a ha => ?_
    rcases ha with rfl | ⟨_, _, rfl⟩ <;> trivial

/-- An event that adds clean data only. -/
theorem tidy_of_eventActs {event : Event} (h : Tidy st)
    (hA : ∀ a ∈ eventActs st event, a.Tidy st.config) : Tidy ((perform event).after st) :=
  tidy_of_performs (performs_perform event) hA h

/-- One event, in the state with the input of its step. -/
theorem tidy_perform {event : Event} (h : Tidy st) (henabled : st.enabled event = true)
    (hevent : event.Clean st st.input.settledError) : Tidy ((perform event).after st) := by
  cases event with
  | data c data =>
    -- The only place where bytes of a peer come in.
    unfold perform receive
    rw [after_bind_of_ok (result_get st)]
    split
    · exact (tidies_processMessages c fun m hm => cleanValues_of_processData hm).after h
    · exact h
  | resume i =>
    cases hf : st.tasks[i]? with
    | none => simp [AcceptorState.enabled, AcceptorState.canResume, hf] at henabled
    | some frame =>
      have htake : Tidy ((Act.take i).apply st) := h.apply (a := .take i) trivial
      rw [after_resume hf]
      exact tidy_resume htake (h.tasks frame (List.mem_of_getElem? hf)) (hevent frame hf)
  | heartbeat s => exact (tidies_heartbeat s).after h
  | reject s err =>
    refine tidy_of_eventActs h fun a ha => ?_
    obtain rfl := Set.mem_singleton_iff.mp ha
    exact tidy_observe rfl
  | send s m =>
    have hsend : Tidies (discard (startSend s m)) :=
      .bind (tidies_startSend s hevent) fun _ => .pure fun _ => id
    exact hsend.after h
  | logout s reason => exact (tidies_logout s hevent .user).after h
  | handleMessage s m =>
    exact (tidies_handleMessage .user s (fun _ hm => by cases hm) hevent).after h
  | stop => exact (tidies_closeAll true).after h
  | closeAll => exact (tidies_closeAll false).after h
  | registerSession s => exact (tidies_registerSession s false).after h
  | newSession config c =>
    refine tidy_of_eventActs h fun a ha => ?_
    obtain rfl := Set.mem_singleton_iff.mp ha
    exact hevent
  | createSession config c =>
    refine tidy_of_eventActs h fun a ha => ?_
    rcases ha with rfl | rfl
    · exact hevent
    · trivial
  | nextListener => exact tidy_of_eventActs h fun a ha => tidy_nextListener ha
  | socketError c err =>
    refine tidy_of_eventActs h fun a ha => ?_
    rcases ha with ⟨_, rfl⟩ | ⟨_, rfl⟩ | rfl
    · exact tidy_observe rfl
    · exact tidy_observe rfl
    · trivial
  | _ =>
    refine tidy_of_eventActs h fun a ha => ?_
    obtain rfl := Set.mem_singleton_iff.mp ha
    trivial

/-- One step. -/
theorem tidy_step (hstep : st.step e = some st') (h : Tidy st) (hclean : HandsClean st e) :
    Tidy st' := by
  obtain ⟨htime, hevent⟩ := hclean
  have hmeets : Tidy (st.meets e) := ⟨h.beginString, htime, h.sessions, h.tasks, h.output⟩
  rw [← after_of_step hstep]
  refine tidy_perform hmeets (step_enabled hstep) ?_
  cases he : e.event <;> rw [he] at hevent <;> exact hevent

/-- Runs. -/
theorem tidy_of_reached (h : acceptor.Reached HandsClean st)
    (hconfig : st.config.beginString.Clean) : Tidy st := by
  induction h with
  | init hinit =>
    obtain ⟨config, rfl⟩ := hinit
    have htime : CleanText Input.calm.sendingTime := by decide
    exact ⟨hconfig, htime, fun s => ⟨clean_undefined, clean_undefined, clean_undefined⟩,
      fun _ hframe => (List.not_mem_nil hframe).elim, fun _ ho => (List.not_mem_nil ho).elim⟩
  | step _ hclean hstep ih => exact tidy_step hstep (ih (config_step hstep ▸ hconfig)) hclean

/-! ## What the peers read -/

/-- What shows a clean message is the text of a readable one. -/
theorem readable_of_shows {o : Observation} (h : o.Shows config m) (hm : m.CleanFields) :
    m.Readable ∧ o.text = m.wireText := by
  have htext : m.toString = .ok o.text := by
    cases h with
    | wrote h => exact h
    | refused h => exact h
  obtain ⟨hrequired, _, _, heq⟩ := Message.toString_eq_ok_iff.mp htext
  exact ⟨hm.readable hrequired, heq⟩

/-- What is handed to a socket in one piece. -/
theorem processData_texts {os : List Observation} {message : Observation → Message}
    (h : ∀ o ∈ os, o.Shows config (message o) ∧ (message o).CleanFields) :
    processData (toUtf8 (os.flatMap Observation.text)) = os.map fun o => (message o).received := by
  have hreadable : ∀ m ∈ os.map message, m.Readable := by
    intro m hm
    obtain ⟨o, ho, rfl⟩ := List.mem_map.mp hm
    exact (readable_of_shows (h o ho).1 (h o ho).2).1
  have htexts : os.flatMap Observation.text = streamText (os.map message) := by
    rw [streamText, List.flatMap_map]
    exact List.flatMap_congr fun o ho => (readable_of_shows (h o ho).1 (h o ho).2).2
  rw [htexts, processData_toUtf8_streamText hreadable, List.map_map]
  rfl

/-- Whatever peers send, as long as the application hands over clean values: what is handed to
a socket is the texts of messages, and a reader that gets it in pieces of whole texts
reads these messages, one for one, with the fields they were written with. -/
theorem readBack_of_reached (h : acceptor.Reached HandsClean st)
    (hconfig : st.config.beginString.Clean) (c : ℕ) :
    ∃ ms, List.Forall₂ (Observation.Shows st.config) (st.outputTo c) ms ∧
      ∀ pieces : List (List Observation), pieces.flatten = st.outputTo c →
        pieces.flatMap (fun os => processData (toUtf8 (os.flatMap Observation.text))) =
          ms.map Message.received := by
  have htidy := tidy_of_reached h hconfig
  have houtput : ∀ o ∈ st.outputTo c, ∃ m, o.Shows st.config m ∧ m.CleanFields := by
    intro o ho
    obtain ⟨hmem, hrecipient⟩ := List.mem_filter.mp ho
    refine htidy.output o hmem ?_
    cases o with
    | wrote s m raw => rfl
    | refused c raw => rfl
    | _ => simp [AcceptorState.recipient] at hrecipient
  have : Nonempty Message := ⟨.empty⟩
  choose! message hmessage using houtput
  refine ⟨(st.outputTo c).map message, ?_, fun pieces hpieces => ?_⟩
  · rw [List.forall₂_map_right_iff, List.forall₂_same]
    exact fun o ho => (hmessage o ho).1
  · have hpiece : ∀ os ∈ pieces, processData (toUtf8 (os.flatMap Observation.text)) =
        os.map fun o => (message o).received := fun os hos =>
      processData_texts fun o ho => hmessage o (hpieces ▸ List.mem_flatten_of_mem hos ho)
    rw [List.flatMap_congr hpiece, ← hpieces, List.map_map, List.map_flatten, List.flatMap]
    rfl

/-- A client logs on and sends a TestRequest whose TestReqID looks like the start of a message;
a stranger is refused. -/
def hostileSteps : List Step :=
  (Event.connect (js "client:1")).calmly :: logonSteps 0 (js "CLIENT") ++
    [Event.data 0 (clientBytes (js "1") (js "CLIENT") [(112, js "8=8=FIX.4.4")]),
      .connect (js "stranger:1"),
      .data 1 (clientBytes (js "0") (js "STRANGER") [])].map Event.calmly

/-- The client gets two messages and the stranger one. -/
theorem readBack_of_reached_hostileSteps : ∃ st ∈ acceptor.exec (broker 0) hostileSteps,
    (st.outputTo 0).length = 2 ∧ (st.outputTo 1).length = 1 ∧
      ∃ ms, List.Forall₂ (Observation.Shows st.config) (st.outputTo 0) ms ∧
        ∀ pieces : List (List Observation), pieces.flatten = st.outputTo 0 →
          pieces.flatMap (fun os => processData (toUtf8 (os.flatMap Observation.text))) =
            ms.map Message.received := by
  have hclean : acceptor.Guarded HandsClean (broker 0) hostileSteps := by decide +kernel
  have hrun : ∃ st ∈ acceptor.exec (broker 0) hostileSteps, st.config.beginString.Clean ∧
      (st.outputTo 0).length = 2 ∧ (st.outputTo 1).length = 1 := by decide +kernel
  obtain ⟨st, hst, hconfig, hclient, hstranger⟩ := hrun
  have hreached : acceptor.Reached HandsClean st :=
    System.Reached.exec (.init ⟨_, rfl⟩) hclean hst
  exact ⟨st, hst, hclient, hstranger, readBack_of_reached hreached hconfig 0⟩

end NestQuickfix.Acceptor
