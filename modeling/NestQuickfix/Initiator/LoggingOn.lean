import NestQuickfix.Acceptor.Causes
import NestQuickfix.Initiator.Start

/-!
# Logging on as initiator

`logon` asks for the state CONNECTED, which is never assigned. So no run of an initiator
ever writes the Logon of a `start`, however often it connects.
-/

namespace NestQuickfix.Initiator

open Lib Lib.Exec Acceptor

/-- The `k`th `start` has logged on: it has written one Logon, emitted STARTED and resolved, and
the session is in state LOGGING_ON. -/
structure LogsOn (st : InitiatorState) (k : ℕ) : Prop where
  wrote : st.trace.count (.wroteLogon k) = 1
  state : st.session.state = .loggingOn
  started : .started k ∈ st.trace
  resolved : .settled k none ∈ st.trace

/-! ## The states of the session -/

/-- No session is in the states that only logging on leads to. -/
def Offline (m : AcceptorState) : Prop :=
  ∀ s, (m.sessions s).state ≠ .connected ∧ (m.sessions s).state ≠ .loggingOn

/-- An act assigns neither of these states. -/
def Spares (a : Act) : Prop :=
  ∀ s state, a = .setState s state → state ≠ .connected ∧ state ≠ .loggingOn

section Manager

variable {m : AcceptorState} {a : Act} {A : Set Act} {α : Type}

theorem Offline.act (h : Offline m) (ha : Spares a) : Offline (a.apply m) := by
  intro s
  rw [sessions_apply_eq]
  cases a with
  | setState y state =>
    simp only [Act.onSession]
    split
    · exact ha y state rfl
    · exact h s
  | beginLogout y =>
    simp only [Act.onSession]
    split
    · exact ⟨by simp, by simp⟩
    · exact h s
  | disconnect y =>
    simp only [Act.onSession, Session.clearTimers]
    split
    · exact ⟨by simp, by simp⟩
    · exact h s
  | create config c =>
    simp only [Act.onSession, Session.new]
    split
    · exact ⟨by simp, by simp⟩
    · exact h s
  | addHandlers y metadata =>
    simp only [Act.onSession, Session.withHandlers]
    split
    · split <;> exact h s
    · exact h s
  | count y =>
    simp only [Act.onSession]
    split <;> exact h s
  | _ => exact h s

/-- Code that assigns neither state keeps all sessions out of them. -/
theorem offline_of_performs {x : AcceptorM α} (hA : ∀ a ∈ A, Spares a) (hx : Performs A m x)
    (h : Offline m) : Offline (x.after m) :=
  Path.keeps (P := Offline) (fun _ a _ ha hm => hm.act (hA a ha)) hx h

/-- The events of a session assign neither state. -/
theorem offline_perform (e : Event) (h : Offline m) : Offline ((perform e).after m) := by
  refine offline_of_performs (fun a ha => ?_) (performs_perform e) h
  rintro s state rfl
  rcases causedBy_of_mem ha with ⟨rfl, _⟩ | ⟨rfl, _⟩ | ⟨rfl, _⟩ <;> exact ⟨by simp, by simp⟩

theorem offline_callUser (h : Offline m) : Offline (callUser.after m) := by
  refine offline_of_performs (A := {.consume}) (fun a ha => ?_) (performs_callUser rfl) h
  rintro s state rfl
  cases ha

theorem offline_startSend (s : ℕ) (message : Message) (h : Offline m) :
    Offline ((startSend s message).after m) := by
  refine offline_of_performs (fun a ha => ?_) (performs_startSend s message fun _ => id) h
  rintro y state rfl
  rcases ha with ha | ⟨_, _, ha⟩ <;> cases ha

theorem offline_setState {s : ℕ} {state : SessionState}
    (hstate : state ≠ .connected ∧ state ≠ .loggingOn) (h : Offline m) :
    Offline ((updateSession s fun x => { x with state := state }).after m) := by
  refine offline_of_performs (A := {.setState s state}) (fun a ha => ?_)
    (performs_setState rfl) h
  rintro y state' rfl
  cases ha
  exact hstate

theorem offline_afterLogoutSent (s : ℕ) (h : Offline m) :
    Offline ((afterLogoutSent s).after m) := by
  refine offline_of_performs (fun a ha => ?_) (performs_afterLogoutSent s fun _ => id) h
  rintro y state rfl
  rcases ha with ((ha | ha) | ha | ha) | (ha | ha | ha | ⟨_, ha⟩) | ⟨_, ha | ha⟩ <;> cases ha

/-- Changes of a socket leave the sessions alone. -/
theorem offline_updateSocket (c : ℕ) (f : Connection → Connection) (h : Offline m) :
    Offline ((updateSocket c f).after m) := h

end Manager

/-! ## The code of an initiator -/

section Code

variable {st st' : InitiatorState}

/-- Code of the session ends in the same way in the initiator. -/
theorem result_onManager (x : AcceptorM α) (st : InitiatorState) :
    (onManager x).result st = ((x.result st.manager).1, { st with
      manager := x.after st.manager
      listeners :=
        if ((x.after st.manager).sockets 0).dataListener then st.listeners else [] }) := by
  unfold onManager
  rw [result_bind, result_get]
  dsimp only
  rw [result_bind, result_set]
  dsimp only
  cases (x.result st.manager).1 <;> rfl

/-- Task `i` is taken. -/
def InitiatorState.taken (st : InitiatorState) (i : ℕ) : InitiatorState :=
  { st with waiting := st.waiting.eraseIdx i }

/-- Going on with a task. -/
theorem after_resumeWaiting {i : ℕ} {w : Waiting} (hw : st.waiting[i]? = some w) :
    (resumeWaiting i).after st = (resume w).after (st.taken i) := by
  unfold resumeWaiting
  rw [after_bind_of_ok (result_get st), hw]
  exact after_bind_of_ok (result_modify _ _)

theorem step_eq_some {e : InitiatorStep} (h : startedInitiator.step st e = some st') :
    st.enabled e.call = true ∧ (performCall e.call).after (st.meets e) = st' := by
  unfold startedInitiator InitiatorState.step at h
  dsimp only at h
  split at h
  · next henabled => exact ⟨henabled, Option.some.inj h⟩
  · cases h

/-- A task that goes on waits, and not for its `connect`. -/
theorem task_of_enabled {i : ℕ} (h : st.enabled (.resume i) = true) :
    ∃ task, st.waiting[i]? = some task ∧ task.wait ≠ none := by
  unfold InitiatorState.enabled at h
  dsimp only at h
  cases htask : st.waiting[i]? with
  | none =>
    rw [htask] at h
    cases h
  | some task =>
    refine ⟨task, rfl, fun hwait => ?_⟩
    rw [htask, Option.bind_some, hwait] at h
    cases h

end Code

/-- No Logon has been written, no start is going to write one, and what has been observed so
far is not forgotten. -/
structure Unstarted (os : List InitiatorObservation) (st : InitiatorState) : Prop where
  offline : Offline st.manager
  waiting : ∀ k caller error, .logonSent k caller error ∉ st.waiting
  wrote : ∀ k, .wroteLogon k ∉ st.trace
  started : ∀ k, .started k ∉ st.trace
  observed : os ⊆ st.trace

namespace Unstarted

variable {α : Type} {st : InitiatorState} {os : List InitiatorObservation}

theorem keeps_onManager {x : AcceptorM α} (hx : ∀ m, Offline m → Offline (x.after m)) :
    Keeps (Unstarted os) (onManager x) := by
  refine .of_after fun st h => ?_
  unfold after
  rw [result_onManager]
  exact ⟨hx _ h.offline, h.waiting, h.wrote, h.started, h.observed⟩

/-- A change of other parts of the state. -/
theorem keeps_modify {f : InitiatorState → InitiatorState}
    (hf : ∀ st, (f st).manager = st.manager ∧ (f st).waiting ⊆ st.waiting ∧
      (f st).trace = st.trace) : Keeps (Unstarted os) (modify f : InitiatorM Unit) := by
  refine .modify fun st h => ?_
  obtain ⟨hmanager, hwaiting, htrace⟩ := hf st
  exact ⟨hmanager ▸ h.offline, fun k caller error hmem => h.waiting k caller error (hwaiting hmem),
    fun k => htrace ▸ h.wrote k, fun k => htrace ▸ h.started k, htrace ▸ h.observed⟩

theorem keeps_wait {w : Waiting} (hw : ∀ k caller error, w ≠ .logonSent k caller error) :
    Keeps (Unstarted os) (wait w) := by
  refine .modify fun st h =>
    ⟨h.offline, fun k caller error hmem => ?_, h.wrote, h.started, h.observed⟩
  rcases List.mem_append.mp hmem with hmem | hmem
  · exact h.waiting k caller error hmem
  · exact hw k caller error (List.mem_singleton.mp hmem).symm

/-- An observation other than those of a Logon. -/
def Unrelated (o : InitiatorObservation) : Prop := ∀ k, o ≠ .wroteLogon k ∧ o ≠ .started k

theorem keeps_note {o : InitiatorObservation} (ho : Unrelated o) :
    Keeps (Unstarted os) (note o) := by
  refine .modify fun st h => ⟨h.offline, h.waiting, fun k hmem => ?_, fun k hmem => ?_,
    List.subset_append_of_subset_left _ h.observed⟩
  · rcases List.mem_append.mp hmem with hmem | hmem
    · exact h.wrote k hmem
    · exact (ho k).1 (List.mem_singleton.mp hmem).symm
  · rcases List.mem_append.mp hmem with hmem | hmem
    · exact h.started k hmem
    · exact (ho k).2 (List.mem_singleton.mp hmem).symm

theorem keeps_announce {o : InitiatorObservation} (ho : Unrelated o) :
    Keeps (Unstarted os) (announce o) :=
  .bind (keeps_note ho) fun _ => keeps_onManager fun _ => offline_callUser

theorem keeps_start (caller : StartCaller) : Keeps (Unstarted os) (start caller) := by
  refine keeps_get_bind fun st _ => ?_
  refine .bind (keeps_modify fun _ => ⟨rfl, fun _ => id, rfl⟩) fun _ => ?_
  refine .bind (keeps_onManager fun _ => offline_updateSocket _ _) fun _ => ?_
  refine .bind (keeps_modify fun _ => ⟨rfl, fun _ => id, rfl⟩) fun _ => ?_
  exact keeps_wait fun _ _ _ heq => by cases heq

/-- A socket event settles calls of `connect` only. -/
theorem logonSent_of_settle {listeners : List ℕ} {result : Except JSError Unit} {w : Waiting}
    {k : ℕ} {caller : StartCaller} {error : Option JSError}
    (h : w.settle listeners result = .logonSent k caller error) :
    w = .logonSent k caller error := by
  cases w with
  | connecting x y =>
    by_cases hx : x ∈ listeners
    · rw [Waiting.settle, if_pos hx] at h
      cases h
    · rw [Waiting.settle, if_neg hx] at h
      exact h
  | _ => exact h

theorem settle (h : Unstarted os st) (result : Except JSError Unit)
    {os' : List InitiatorObservation} (hos : ∀ o ∈ os', Unrelated o) : Unstarted os { st with
      waiting := st.waiting.map (Waiting.settle st.listeners result)
      trace := st.trace ++ os' } := by
  refine ⟨h.offline, fun k caller error hmem => ?_, fun k hmem => ?_, fun k hmem => ?_,
    List.subset_append_of_subset_left _ h.observed⟩
  · obtain ⟨w, hw, heq⟩ := List.mem_map.mp hmem
    exact h.waiting k caller error (logonSent_of_settle heq ▸ hw)
  · rcases List.mem_append.mp hmem with hmem | hmem
    · exact h.wrote k hmem
    · exact (hos _ hmem k).1 rfl
  · rcases List.mem_append.mp hmem with hmem | hmem
    · exact h.started k hmem
    · exact (hos _ hmem k).2 rfl

theorem keeps_socketConnect : Keeps (Unstarted os) socketConnect := by
  refine .modify fun st h => h.settle _ fun o ho => ?_
  obtain ⟨_, _, rfl⟩ := List.mem_map.mp ho
  exact fun _ => ⟨by simp, by simp⟩

theorem keeps_socketError (e : JSError) : Keeps (Unstarted os) (socketError e) := by
  refine .bind (keeps_get_bind fun st _ => ?_) fun _ =>
    keeps_onManager fun _ => offline_updateSocket _ _
  split
  · refine .modify fun st h => ?_
    have hnone : ∀ o ∈ ([] : List InitiatorObservation), Unrelated o := fun _ ho => by cases ho
    have hsettled := h.settle (.error e) hnone
    rwa [List.append_nil] at hsettled
  · exact keeps_note fun _ => ⟨by simp, by simp⟩

/-! ## Failing -/

theorem keeps_scheduleReconnect : Keeps (Unstarted os) scheduleReconnect := by
  refine keeps_get_bind fun st _ => ?_
  split
  · exact keeps_announce fun _ => ⟨by simp, by simp⟩
  · exact keeps_modify fun _ => ⟨rfl, fun _ => id, rfl⟩

theorem keeps_settleStart (k : ℕ) (caller : StartCaller) (result : Except JSError Unit) :
    Keeps (Unstarted os) (settleStart k caller result) := by
  cases result with
  | ok => exact keeps_note fun _ => ⟨by simp, by simp⟩
  | error e =>
    refine .bind (keeps_note fun _ => ⟨by simp, by simp⟩) fun _ => ?_
    cases caller with
    | user => exact .pure fun _ => id
    | timer =>
      refine .bind (.attempt (keeps_announce fun _ => ⟨by simp, by simp⟩)) fun r => ?_
      cases r <;> exact .pure fun _ => id

theorem keeps_handleFailure (e : JSError) : Keeps (Unstarted os) (handleFailure e) := by
  refine .bind (keeps_announce fun _ => ⟨by simp, by simp⟩) fun _ => keeps_get_bind fun st _ => ?_
  split
  · exact keeps_scheduleReconnect
  · exact .throw fun _ => id

theorem keeps_finishStart (k : ℕ) (caller : StartCaller) (result : Except JSError Unit) :
    Keeps (Unstarted os) (finishStart k caller result) := by
  cases result with
  | ok u => exact keeps_settleStart k caller (.ok u)
  | error e =>
    refine .bind (.attempt (keeps_handleFailure e)) fun r => ?_
    cases r <;> exact keeps_settleStart k caller _

/-! ## Going on -/

/-- Without the state CONNECTED `logon` throws. -/
theorem result_startLogon (h : Offline st.manager) (k : ℕ) : (startLogon k).result st =
    (.error (js "Session must be in CONNECTED state to logon"), st) := by
  unfold startLogon
  rw [result_bind, result_get]
  dsimp only
  have hstate : st.session.state ≠ .connected := (h 0).1
  rw [if_pos hstate]
  rfl

theorem keeps_startLogon (k : ℕ) :
    Triple (Unstarted os) (startLogon k) (fun _ _ => False) (Unstarted os) := by
  intro st h
  rw [result_startLogon h.offline]
  refine ⟨fun _ _ heq => ?_, fun _ _ heq => ?_⟩
  · cases (Prod.mk.inj heq).1
  · obtain ⟨_, rfl⟩ := Prod.mk.inj heq
    exact h

theorem keeps_resume {w : Waiting} (hw : ∀ k caller error, w ≠ .logonSent k caller error) :
    Keeps (Unstarted os) (resume w) := by
  cases w with
  | connecting => exact .pure fun _ => id
  | connected k caller result =>
    cases result with
    | error e => exact keeps_finishStart k caller (.error e)
    | ok =>
      refine .bind (.attempt (keeps_startLogon k)) fun r => ?_
      cases r with
      | ok error => exact fun _ hfalse => hfalse.elim
      | error e => exact keeps_finishStart k caller _
  | logonSent k caller error => exact absurd rfl (hw k caller error)
  | logoutSent error =>
    refine .bind (.attempt (keeps_onManager fun _ => offline_afterLogoutSent 0)) fun r => ?_
    cases r with
    | error e => exact .pure fun _ => id
    | ok =>
      refine .bind (keeps_onManager fun _ => offline_updateSocket _ _) fun _ => ?_
      refine .bind (.attempt (keeps_announce fun _ => ⟨by simp, by simp⟩)) fun r => ?_
      cases r <;> exact .pure fun _ => id

theorem keeps_resumeWaiting (i : ℕ) : Keeps (Unstarted os) (resumeWaiting i) := by
  refine keeps_get_bind fun st h => ?_
  split
  · exact .pure fun _ => id
  · next w hw =>
    refine .bind (keeps_modify fun st => ⟨rfl, List.eraseIdx_subset, rfl⟩) fun _ => ?_
    refine keeps_resume fun k caller error heq => h.waiting k caller error ?_
    exact heq ▸ List.mem_of_getElem? hw

theorem keeps_stop : Keeps (Unstarted os) stop := by
  refine .bind (keeps_modify fun _ => ⟨rfl, fun _ => id, rfl⟩) fun _ =>
    keeps_get_bind fun st _ => ?_
  split
  · exact .pure fun _ => id
  · refine .bind (keeps_onManager fun _ => offline_setState ⟨by simp, by simp⟩) fun _ => ?_
    refine .bind (keeps_onManager fun _ => offline_startSend 0 _) fun error => ?_
    exact keeps_wait fun _ _ _ heq => by cases heq

/-- No event lets a start log on. -/
theorem keeps_performCall (call : InitiatorCall) : Keeps (Unstarted os) (performCall call) := by
  cases call with
  | start => exact keeps_start .user
  | stop => exact keeps_stop
  | socketConnect => exact keeps_socketConnect
  | socketError e => exact keeps_socketError e
  | socketClose => exact keeps_onManager fun _ => offline_updateSocket _ _
  | timer id =>
    exact .bind (keeps_modify fun _ => ⟨rfl, fun _ h => h, rfl⟩) fun _ => keeps_start .timer
  | resume i => exact keeps_resumeWaiting i
  | session e => exact keeps_onManager fun _ => offline_perform e

end Unstarted

/-! ## Runs -/

variable {guard : InitiatorState → InitiatorStep → Prop} {st st' : InitiatorState}
  {e : InitiatorStep}

theorem unstarted_new (config : StartConfig) : Unstarted [] (.new config) := by
  have hnew : Offline (AcceptorState.new
      ⟨.undefined, config.beginString, false, config.maxSessions, []⟩) :=
    fun _ => ⟨by simp [AcceptorState.new], by simp [AcceptorState.new]⟩
  have hcreate : Offline ((Act.create (setupSession config.toInitiatorConfig) 0).apply
      (AcceptorState.new ⟨.undefined, config.beginString, false, config.maxSessions, []⟩)) :=
    hnew.act fun _ _ heq => by cases heq
  exact ⟨hcreate, fun _ _ _ => List.not_mem_nil, fun _ => List.not_mem_nil,
    fun _ => List.not_mem_nil, List.nil_subset _⟩

theorem Unstarted.meets {os : List InitiatorObservation} (h : Unstarted os st)
    (e : InitiatorStep) : Unstarted os (st.meets e) :=
  ⟨h.offline, h.waiting, h.wrote, h.started, h.observed⟩

theorem Unstarted.taken {os : List InitiatorObservation} (h : Unstarted os st) (i : ℕ) :
    Unstarted os (st.taken i) :=
  ⟨h.offline, fun k caller error hmem => h.waiting k caller error (List.eraseIdx_subset hmem),
    h.wrote, h.started, h.observed⟩

theorem Unstarted.step (h : Unstarted [] st) (hstep : startedInitiator.step st e = some st') :
    Unstarted [] st' := by
  obtain ⟨-, rfl⟩ := step_eq_some hstep
  exact (Unstarted.keeps_performCall e.call).after (h.meets e)

theorem unstarted_of_reached (h : startedInitiator.Reached guard st) : Unstarted [] st := by
  refine System.Invariant.of_reached (P := Unstarted []) ⟨?_, ?_⟩ h
  · rintro _ ⟨config, rfl⟩
    exact unstarted_new config
  · exact fun _ _ _ hst _ hstep => hst.step hstep

/-- A start whose socket has connected goes on by failing. -/
theorem after_resume_connected (h : Offline st.manager) (k : ℕ) (caller : StartCaller) :
    (resume (.connected k caller (.ok ()))).after st = (finishStart k caller
      (.error (js "Session must be in CONNECTED state to logon"))).after st := by
  have hlogon : (Exec.attempt (startLogon k)).result st =
      (.ok (.error (js "Session must be in CONNECTED state to logon")), st) := by
    rw [result_attempt, Unstarted.result_startLogon h]
  unfold resume
  rw [after_bind_of_ok hlogon]

/-- In no run of an initiator does the session become CONNECTED, and no start ever logs on. -/
theorem not_logsOn_of_reached (h : startedInitiator.Reached guard st) :
    st.session.state ≠ .connected ∧ ∀ k, ¬ LogsOn st k :=
  ⟨((unstarted_of_reached h).offline 0).1,
    fun k hlogs => (unstarted_of_reached h).started k hlogs.started⟩

/-- A client that does not reconnect. -/
def clientConfig : StartConfig where
  senderCompID := js "CLIENT"
  targetCompID := js "BROKER"
  heartBtInt := .int 30
  beginString := .str (js "FIX.4.4")
  reconnect := none
  maxSessions := 0

/-- A user starts the initiator, its socket connects, and the start goes on. -/
def connectingSteps : List InitiatorStep :=
  [⟨.start, .calm⟩, ⟨.socketConnect, .calm⟩, ⟨.resume 0, .calm⟩]

/-- The run of the client. -/
theorem not_logsOn_connectingSteps :
    ∃ st ∈ startedInitiator.exec (.new clientConfig) connectingSteps,
      st.session.state ≠ .connected ∧ ∀ k, ¬ LogsOn st k := by
  have hrun : (startedInitiator.exec (.new clientConfig) connectingSteps).isSome = true := by
    decide +kernel
  obtain ⟨st, hst⟩ := Option.isSome_iff_exists.mp hrun
  have hreached : startedInitiator.Reached (fun _ _ => True) st := .of_exec ⟨_, rfl⟩ hst
  exact ⟨st, hst, not_logsOn_of_reached hreached⟩

/-- The socket connects and is writable, but the start rejects. -/
theorem not_logsOn_connected :
    ∃ st ∈ startedInitiator.exec (.new clientConfig) connectingSteps,
      st.trace = [.connected 0, .failed (js "Session must be in CONNECTED state to logon"),
        .settled 0 (some (js "Session must be in CONNECTED state to logon"))] ∧
      st.manager.writable 0 = true ∧ ¬ LogsOn st 0 := by
  have hrun : ∃ st ∈ startedInitiator.exec (.new clientConfig) connectingSteps,
      st.trace = [.connected 0, .failed (js "Session must be in CONNECTED state to logon"),
        .settled 0 (some (js "Session must be in CONNECTED state to logon"))] ∧
      st.manager.writable 0 = true := by decide +kernel
  obtain ⟨st, hst, htrace, hwritable⟩ := hrun
  refine ⟨st, hst, htrace, hwritable, fun hlogs => ?_⟩
  have hstarted := hlogs.started
  rw [htrace] at hstarted
  simp at hstarted

end NestQuickfix.Initiator
