import NestQuickfix.Acceptor.Performs
import NestQuickfix.Acceptor.Registrations

/-!
# What causes the acts of a step

Every act of a step goes back to its event: to the message it passes to a session, the task
it goes on with, the listener it calls or the call of a user. What a step can do is said
here once for each kind of act.
-/

namespace NestQuickfix.Acceptor

open Lib Lib.Exec

/-! ## Loops over messages -/

/-- The connection whose loop over the messages of a chunk waits for `handleMessage`. -/
def Origin.loop : Origin → Option ℕ
  | .chunk c _ _ => some c
  | .user => none

/-- The connection whose loop over the messages of a chunk goes on with a task. -/
def Frame.loop : Frame → Option ℕ
  | .nextMessage c _ | .validateCredentials c _ _ | .getAllowedSenderCompIds c _ _
  | .validated c _ _ _ | .closeDelay c _ | .created c _ _ _ | .handlersSet c _ _ _ => some c
  | .logonResponse origin _ _ _ | .testRequestReply origin _ _ _ | .messageHandlers origin _ _
  | .handlerPending origin _ _ _ => origin.loop
  | _ => none

/-- The message a task handles, with its session. -/
def Frame.serves : Frame → Option (Origin × ℕ × Message)
  | .logonResponse origin s m _ | .testRequestReply origin s m _ | .messageHandlers origin s m
  | .handlerPending origin s m _ => some (origin, s, m)
  | _ => none

variable {st : AcceptorState} {e : Event} {a : Act}

/-- An event goes on with a task. -/
def AcceptorState.GoesOn (st : AcceptorState) (e : Event) (frame : Frame) : Prop :=
  ∃ i, e = .resume i ∧ st.tasks[i]? = some frame

/-- An event goes on with the loop over the messages of a chunk of a connection. -/
def AcceptorState.Processes (st : AcceptorState) (e : Event) (c : ℕ) : Prop :=
  (∃ ms, st.incoming e = some (c, ms)) ∨ ∃ frame, st.GoesOn e frame ∧ frame.loop = some c

/-- An event passes a message to `handleMessage` of a session. -/
inductive AcceptorState.Handles (st : AcceptorState) : Event → Origin → ℕ → Message → Prop
  | routed {e : Event} {c s : ℕ} {m : Message} {rest : List Message}
      (h : st.incoming e = some (c, m :: rest)) (hs : st.lifecycle.routed m = some s) :
      Handles st e (.chunk c rest false) s m
  | started {i c s : ℕ} {m : Message} {rest : List Message}
      (hf : st.tasks[i]? = some (.handlersSet c s m rest)) :
      Handles st (.resume i) (.chunk c rest true) s m
  | called {s : ℕ} {m : Message} : Handles st (.handleMessage s m) .user s m

/-- An event begins or continues the handling of a message by a session. -/
def AcceptorState.Serves (st : AcceptorState) (e : Event) (origin : Origin) (s : ℕ)
    (m : Message) : Prop :=
  st.Handles e origin s m ∨ ∃ frame, st.GoesOn e frame ∧ frame.serves = some (origin, s, m)

/-- The session whose `handleLogon` goes on after its response in an event. -/
def AcceptorState.responds (st : AcceptorState) : Event → Option ℕ
  | .resume i =>
    match st.tasks[i]? with
    | some (.logonResponse _ s _ _) => some s
    | _ => none
  | _ => none

/-! ## Sessions that end -/

/-- The calls of user code that an event makes up to the end of `handleDisconnect`. -/
def AcceptorState.endingCalls (st : AcceptorState) (e : Event) (s : ℕ) : ℕ :=
  match e with
  | .nextListener => st.disconnectCalls s
  | .resume i =>
    match st.tasks[i]? with
    | some (.logoutSent ..) => 1 + st.disconnectCalls s
    | _ => st.logoutCalls s
  | _ => st.logoutCalls s

/-- The sessions that an event ends completely, since no user code throws before. -/
def AcceptorState.completes (st : AcceptorState) (e : Event) : List ℕ :=
  match e, st.closing with
  | .nextListener, some (c, .acceptor :: _) => st.cleanedUp c 0 st.registry.values
  | e, _ => (st.ends e).filter fun s => st.input.calmFor (st.endingCalls e s)

theorem mem_of_cleanedUp {c n s : ℕ} {sessions : List ℕ} (h : s ∈ st.cleanedUp c n sessions) :
    s ∈ sessions ∧ (st.sessions s).socket = c := by
  induction sessions generalizing n with
  | nil => cases h
  | cons x sessions ih =>
    unfold AcceptorState.cleanedUp at h
    split at h
    · next hx =>
      split at h
      · rcases List.mem_cons.mp h with rfl | h
        · exact ⟨List.mem_cons_self, hx⟩
        · exact ⟨List.mem_cons_of_mem x (ih h).1, (ih h).2⟩
      · cases h
    · exact ⟨List.mem_cons_of_mem x (ih h).1, (ih h).2⟩

theorem ends_of_completes {s : ℕ} (h : s ∈ st.completes e) : s ∈ st.ends e := by
  unfold AcceptorState.completes at h
  split at h
  · next hclosing =>
    obtain ⟨hs, hc⟩ := mem_of_cleanedUp h
    rw [ends_cleaned hclosing]
    exact List.mem_filter.mpr ⟨hs, decide_eq_true hc⟩
  · exact List.mem_of_mem_filter h

/-! ## Logouts and registrations -/

/-- An event registers a session, and its id is already taken. -/
inductive AcceptorState.Replaces (st : AcceptorState) : Event → ℕ → ℕ → Bool → Prop
  | called {s old : ℕ} (h : st.registry.get? (st.sessions s).sessionId = some old) :
      Replaces st (.registerSession s) s old false
  | created {i c old : ℕ} {m : Message} {rest : List Message}
      (hf : st.tasks[i]? = some (.validated c m rest .valid))
      (h : st.registry.get? (buildSessionId m) = some old) :
      Replaces st (.resume i) st.nextSession old true

/-- An event calls `logout` of a session. -/
inductive AcceptorState.LogsOut (st : AcceptorState) : Event → ℕ → LogoutCaller → Prop
  | called {s : ℕ} {reason : Value} : LogsOut st (.logout s reason) s .user
  | replaced {e : Event} {s old : ℕ} {dropped : Bool} (h : st.Replaces e s old dropped) :
      LogsOut st e old (.registration s dropped)
  | stopped {s : ℕ} (h : s ∈ st.registry.values) :
      LogsOut st .stop s (.closeAll st.closeAlls.length)
  | closed {s : ℕ} (h : s ∈ st.registry.values) :
      LogsOut st .closeAll s (.closeAll st.closeAlls.length)

/-- The session that an event may store. -/
def AcceptorState.mayStore (st : AcceptorState) : Event → Option ℕ
  | .registerSession s => some s
  | .createSession _ _ => some st.nextSession
  | .resume i =>
    match st.tasks[i]? with
    | some (.validated _ _ _ .valid) => some st.nextSession
    | some (.registration s _) => some s
    | _ => none
  | _ => none

/-- An event that ends sessions registers none. -/
theorem mayStore_of_ends {s : ℕ} (h : s ∈ st.ends e) : st.mayStore e = none := by
  cases e with
  | resume i =>
    unfold AcceptorState.ends AcceptorState.incoming at h
    unfold AcceptorState.mayStore
    dsimp only at h ⊢
    cases hf : st.tasks[i]? with
    | none => rfl
    | some frame =>
      rw [hf] at h
      cases frame with
      | validated c m rest verdict => cases h
      | registration s dropped => cases h
      | _ => rfl
  | registerSession s => cases h
  | createSession config c => cases h
  | _ => rfl

/-! ## Causes -/

/-- What causes a task. -/
def Frame.CausedBy (st : AcceptorState) (e : Event) : Frame → Prop
  | .nextMessage c _ => st.Processes e c
  | .closeDelay c _ => st.Processes e c
  | .validateCredentials c m rest => st.incoming e = some (c, m :: rest) ∧
      m.getField Fields.msgType = MsgType.logon ∧ st.config.accepts m
  | .getAllowedSenderCompIds c m rest => st.GoesOn e (.validateCredentials c m rest) ∧
      st.input.settled = .ok () ∧ st.input.credentials = true
  | .validated c m rest verdict => st.Processes e c ∧ (verdict = .valid →
      st.config.auth = false ∧ st.config.accepts m ∨
      st.GoesOn e (.getAllowedSenderCompIds c m rest) ∧ st.input.settled = .ok () ∧
        m.getField Fields.senderCompID ∈ st.input.allowedSenderCompIds)
  | .created c s m rest => s = st.nextSession ∧ st.GoesOn e (.validated c m rest .valid)
  | .handlersSet c s m rest => st.GoesOn e (.created c s m rest)
  | .logonResponse origin s m _ => st.Handles e origin s m ∧ st.logsOn e = some s
  | .testRequestReply origin s m _ => st.Handles e origin s m
  | .messageHandlers origin s m => st.Serves e origin s m
  | .handlerPending origin s m _ => st.Serves e origin s m
  | .logoutSent s caller _ => st.LogsOut e s caller ∧ (st.sessions s).state ≠ .disconnected
  | .registration s dropped => (∃ old, st.Replaces e s old dropped) ∨
      ∃ old error, st.GoesOn e (.logoutSent old (.registration s dropped) error)
  | .allClosed .. => False
  | .closeAllSockets => ∃ k stopping, st.GoesOn e (.allClosed k stopping)

/-- What causes an observation. -/
def Observation.CausedBy (st : AcceptorState) (e : Event) : Observation → Prop
  | .processing c m => ∃ rest, st.incoming e = some (c, m :: rest)
  | .dispatched c s m => ∃ rest, st.incoming e = some (c, m :: rest) ∧
      st.lifecycle.routed m = some s
  | .refused c _ => st.Processes e c
  | .answered s => st.logsOn e = some s
  | .ran s kind =>
    match kind with
    | .disconnected => False
    | .logout => s ∈ st.ends e
    | .connected | .logon => st.responds e = some s
  | .emitted s event => event = .loggedOn → st.responds e = some s
  | .rejected s err => e = .reject s err
  | .uncaught _ => e = .nextListener ∨ (∃ c, st.Processes e c) ∨
      ∃ c err, e = .socketError c err ∧ (st.sockets c).errorListener = false
  | _ => True

/-- What causes an act. -/
def Act.CausedBy (st : AcceptorState) (e : Event) : Act → Prop
  | .observe o => o.CausedBy st e
  | .suspend frame => frame.CausedBy st e
  | .take i => e = .resume i
  | .setState s state => state = .loggedOn ∧ st.logsOn e = some s ∨
      state = .error ∧ st.responds e = some s ∨ state = .disconnected ∧ s ∈ st.ends e
  | .disconnect s => s ∈ st.ends e
  | .create config c => (∃ m rest, st.GoesOn e (.validated c m rest .valid) ∧
      config = buildSessionConfig st.config m) ∨ e = .newSession config c ∨
        e = .createSession config c
  | .register s => st.mayStore e = some s
  | .remove sessionId => e = .removeSession sessionId
  | .removeId s => s ∈ st.completes e
  | .strip s => s ∈ st.completes e
  | .clear => ∃ k stopping, st.GoesOn e (.allClosed k stopping)
  | .listen c s => ∃ m rest, st.GoesOn e (.handlersSet c s m rest)
  | .connect remoteAddress => e = .connect remoteAddress
  | .close c => e = .close c
  | .forget c => e = .nextListener ∧ ∃ ls, st.closing = some (c, .acceptor :: ls)
  | .setClosing closing => e = .nextListener ∧ ∃ c ls, st.closing = some (c, ls) ∧
      (closing = none ∨ closing = some (c, ls.tail))
  | .shut => st.GoesOn e .closeAllSockets
  | .callCloseAll stopping => e = if stopping then .stop else .closeAll
  | .settleCloseAll k result =>
    (∃ s, st.LogsOut e s (.closeAll k) ∧ (st.sessions s).state = .disconnected ∧
      result = .error (js "Session already disconnected")) ∨
    ∃ s error, st.GoesOn e (.logoutSent s (.closeAll k) error) ∧ ∀ err, result = .error err →
      st.input.calmFor (2 + st.disconnectCalls s) = false
  | .join s roomId => e = .join s roomId
  | .leave s roomId => e = .leave s roomId
  | _ => True

/-! ## What each event can do -/

theorem processes_of_incoming {c : ℕ} {ms : List Message} (h : st.incoming e = some (c, ms)) :
    st.Processes e c :=
  Or.inl ⟨ms, h⟩

theorem processes_of_task {i c : ℕ} {frame : Frame} (hf : st.tasks[i]? = some frame)
    (h : frame.loop = some c) : st.Processes (.resume i) c :=
  Or.inr ⟨frame, ⟨i, rfl, hf⟩, h⟩

/-- A loop goes on with every message it handles. -/
theorem AcceptorState.Serves.processes {origin : Origin} {s c : ℕ} {m : Message}
    (h : st.Serves e origin s m) (hc : origin.loop = some c) : st.Processes e c := by
  rcases h with h | ⟨frame, hf, hserves⟩
  · cases h with
    | routed hin =>
      cases hc
      exact processes_of_incoming hin
    | started hf =>
      cases hc
      exact processes_of_task hf rfl
    | called => cases hc
  · refine Or.inr ⟨frame, hf, ?_⟩
    cases frame <;> cases hserves <;> exact hc

theorem logsOn_of_handles {origin : Origin} {s : ℕ} {m : Message} (h : st.Handles e origin s m)
    (hm : m.getField Fields.msgType = MsgType.logon) : st.logsOn e = some s := by
  cases h with
  | routed hin hs =>
    have hroutable : routable m = true := by
      by_contra hnot
      rw [Lifecycle.routed, if_neg hnot] at hs
      cases hs
    simp [routable, hm] at hroutable
  | started hf => simp [AcceptorState.logsOn, hf, hm]
  | called => simp [AcceptorState.logsOn, hm]

theorem ends_of_handles {origin : Origin} {s : ℕ} {m : Message} (h : st.Handles e origin s m)
    (hm : m.getField Fields.msgType = MsgType.logout) : st.ends e = [s] := by
  cases h with
  | routed hin hs => exact ends_processed hin rfl hs hm
  | started hf => exact ends_started hf hm
  | called => exact ends_handled hm

theorem endingCalls_of_handles {origin : Origin} {s : ℕ} {m : Message}
    (h : st.Handles e origin s m) : st.endingCalls e s = st.logoutCalls s := by
  cases h with
  | @routed e c s m rest hin hs =>
    cases e with
    | resume i =>
      unfold AcceptorState.incoming at hin
      dsimp only at hin
      split at hin
      · next hf => simp [AcceptorState.endingCalls, hf]
      · cases hin
    | data => rfl
    | _ => cases hin
  | started hf => simp [AcceptorState.endingCalls, hf]
  | called => rfl

theorem completes_eq (hne : e ≠ .nextListener) :
    st.completes e = (st.ends e).filter fun s => st.input.calmFor (st.endingCalls e s) := by
  unfold AcceptorState.completes
  split
  · exact absurd rfl hne
  · rfl

theorem AcceptorState.Handles.ne_nextListener {origin : Origin} {s : ℕ} {m : Message}
    (h : st.Handles e origin s m) : e ≠ .nextListener := by
  rintro rfl
  cases h with
  | routed hin => cases hin

theorem causedBy_send {s : ℕ} (ha : a ∈ sendActs s) : a.CausedBy st e := by
  rcases ha with rfl | ⟨m, raw, rfl⟩ <;> trivial

theorem causedBy_tearDown {s : ℕ} {p : Prop} (hs : s ∈ st.ends e) (hp : p → s ∈ st.completes e)
    (ha : a ∈ tearDownActs s p) : a.CausedBy st e := by
  rcases ha with (rfl | rfl | rfl | ⟨hdone, rfl⟩) | ⟨hdone, rfl | rfl⟩
  · trivial
  · exact hs
  · exact fun h => by cases h
  · exact hp hdone
  · trivial
  · exact hp hdone

theorem causedBy_settleMessage {origin : Origin} {s : ℕ} {m : Message}
    (h : st.Serves e origin s m) (ha : a ∈ settleMessageActs origin) : a.CausedBy st e := by
  cases origin with
  | user => exact ha.elim
  | chunk c rest logon =>
    rcases ha with rfl | rfl
    · trivial
    · exact h.processes rfl

theorem causedBy_runMessageHandlers {origin : Origin} {s : ℕ} {m : Message}
    (h : st.Serves e origin s m) (ha : a ∈ runMessageHandlersActs origin s m) :
    a.CausedBy st e := by
  rcases ha with ha | rfl | ⟨i, rfl⟩ | ⟨next, rfl⟩
  · exact causedBy_settleMessage h ha
  · trivial
  · trivial
  · exact h

theorem causedBy_handleLogout {origin : Origin} {s : ℕ} {m : Message} (h : st.Handles e origin s m)
    (hm : m.getField Fields.msgType = MsgType.logout) (ha : a ∈ handleLogoutActs st s) :
    a.CausedBy st e := by
  have hs : s ∈ st.ends e := by
    rw [ends_of_handles h hm]
    exact List.mem_singleton_self s
  rcases ha with (((rfl | rfl) | rfl | rfl) | rfl) | ha
  · exact hs
  · trivial
  · exact fun h => by cases h
  · trivial
  · exact Or.inr (Or.inr ⟨rfl, hs⟩)
  · refine causedBy_tearDown hs (fun hcalm => ?_) ha
    rw [completes_eq h.ne_nextListener, List.mem_filter, endingCalls_of_handles h]
    exact ⟨hs, hcalm⟩

theorem causedBy_handleMessage {origin : Origin} {s : ℕ} {m : Message}
    (h : st.Handles e origin s m) (ha : a ∈ handleMessageActs st origin s m) : a.CausedBy st e := by
  unfold handleMessageActs at ha
  split at ha
  · next hlogon =>
    have hs := logsOn_of_handles h hlogon
    rcases ha with ha | rfl | rfl | ⟨error, rfl⟩
    · exact causedBy_send ha
    · exact Or.inl ⟨rfl, hs⟩
    · exact hs
    · exact ⟨h, hs⟩
  · split at ha
    · next hlogout =>
      rcases ha with (ha | ha) | rfl
      · exact causedBy_handleLogout h hlogout ha
      · exact causedBy_settleMessage (Or.inl h) ha
      · exact Or.inl h
    · split at ha
      · rcases ha with ha | ⟨error, rfl⟩
        · exact causedBy_send ha
        · exact h
      · exact causedBy_runMessageHandlers (Or.inl h) ha

theorem causedBy_refuse {c : ℕ} {rest : List Message} (h : st.Processes e c)
    (ha : a ∈ refuseActs c rest) : a.CausedBy st e := by
  rcases ha with (rfl | ⟨_, rfl⟩ | ⟨_, rfl⟩) | ⟨raw, rfl⟩ | rfl | rfl
  · trivial
  · trivial
  · exact Or.inr (Or.inl ⟨c, h⟩)
  · exact h
  · exact h
  · exact h

theorem causedBy_process {c : ℕ} {ms : List Message} (h : st.incoming e = some (c, ms))
    (ha : a ∈ processActs st c ms) : a.CausedBy st e := by
  have hprocesses := processes_of_incoming h
  cases ms with
  | nil => exact ha.elim
  | cons m rest =>
    rcases ha with ⟨rfl, _⟩ | ⟨err, rfl⟩ | rfl | rfl | ⟨hlogon, ha⟩ | ⟨hroutable, ha⟩
    · exact hprocesses
    · trivial
    · trivial
    · exact ⟨rest, h⟩
    · rcases ha with ⟨verdict, rfl, hvalid⟩ | ⟨rfl, haccepts⟩
      · exact ⟨hprocesses, fun hv => Or.inl ⟨(hvalid hv).2, (hvalid hv).1⟩⟩
      · exact ⟨h, hlogon, haccepts⟩
    · rcases ha with ha | ⟨s, hs, ha⟩
      · exact causedBy_refuse hprocesses ha
      · have hrouted : st.lifecycle.routed m = some s := (if_pos hroutable).trans hs
        rcases ha with rfl | ha
        · exact ⟨rest, h, hrouted⟩
        · exact causedBy_handleMessage (.routed h hrouted) ha

/-! ## Logouts, registrations and close events -/

theorem causedBy_settleLogout {s : ℕ} {caller : LogoutCaller} (h : st.LogsOut e s caller)
    (hstate : (st.sessions s).state = .disconnected)
    (ha : a ∈ settleLogoutActs caller (.error (js "Session already disconnected"))) :
    a.CausedBy st e := by
  cases h with
  | called => exact ha.elim
  | replaced h =>
    obtain rfl := Set.mem_singleton_iff.mp ha
    exact Or.inl ⟨s, h⟩
  | stopped h =>
    obtain rfl := Set.mem_singleton_iff.mp ha
    exact Or.inl ⟨s, .stopped h, hstate, rfl⟩
  | closed h =>
    obtain rfl := Set.mem_singleton_iff.mp ha
    exact Or.inl ⟨s, .closed h, hstate, rfl⟩

theorem causedBy_logout {s : ℕ} {caller : LogoutCaller} (h : st.LogsOut e s caller)
    (ha : a ∈ logoutActs st s caller) : a.CausedBy st e := by
  rcases ha with ⟨hstate, ha⟩ | ⟨hstate, rfl | ha | ⟨error, rfl⟩⟩
  · exact causedBy_settleLogout h hstate ha
  · trivial
  · exact causedBy_send ha
  · exact ⟨h, hstate⟩

theorem causedBy_finish {st' : AcceptorState} {s : ℕ} (h : st.mayStore e = some s)
    (ha : a ∈ finishActs st' s) : a.CausedBy st e := by
  rcases ha with ⟨_, rfl⟩ | ⟨err, rfl⟩
  · exact h
  · trivial

theorem causedBy_create {i c : ℕ} {m : Message} {rest : List Message}
    (hf : st.tasks[i]? = some (.validated c m rest .valid)) (ha : a ∈ createActs st c m rest) :
    a.CausedBy st (.resume i) := by
  have hgoes : st.GoesOn (.resume i) (.validated c m rest .valid) := ⟨i, rfl, hf⟩
  rcases ha with (rfl | rfl) | ⟨_, ha⟩ | ⟨old, hold, ha⟩
  · exact Or.inl ⟨m, rest, hgoes, rfl⟩
  · exact ⟨rfl, hgoes⟩
  · exact causedBy_finish (by simp [AcceptorState.mayStore, hf]) ha
  · have hid : (((Act.create (buildSessionConfig st.config m) c).apply st).sessions
        st.nextSession).sessionId = buildSessionId m := by
      simp [Act.apply, Session.sessionId, buildSessionConfig, buildSessionId]
    rw [hid] at hold
    have hreplaces : st.Replaces (.resume i) st.nextSession old true := .created hf hold
    rcases ha with ⟨_, ha⟩ | ⟨hstate, rfl | ha | ⟨error, rfl⟩⟩
    · obtain rfl := Set.mem_singleton_iff.mp ha
      exact Or.inl ⟨old, hreplaces⟩
    · trivial
    · exact causedBy_send ha
    · refine ⟨.replaced hreplaces, fun hdown => hstate ?_⟩
      by_cases hnew : old = st.nextSession
      · simp [Act.apply, hnew]
      · simpa [Act.apply, hnew] using hdown

theorem causedBy_listener {c : ℕ} {l : CloseListener} {ls : List CloseListener}
    (hclosing : st.closing = some (c, l :: ls)) (ha : a ∈ listenerActs st c l) :
    a.CausedBy st .nextListener := by
  cases l with
  | acceptor =>
    rcases ha with rfl | ⟨s, hs, hc, ha⟩
    · exact ⟨rfl, ls, hclosing⟩
    · refine causedBy_tearDown ?_ (fun hmem => ?_) ha
      · rw [ends_cleaned hclosing]
        exact List.mem_filter.mpr ⟨hs, decide_eq_true hc⟩
      · unfold AcceptorState.completes
        rwa [hclosing]
  | session s =>
    have hs : s ∈ st.ends .nextListener := by
      rw [ends_listened hclosing]
      exact List.mem_singleton_self s
    refine causedBy_tearDown hs (fun hcalm => ?_) ha
    unfold AcceptorState.completes
    rw [hclosing]
    exact List.mem_filter.mpr ⟨hs, hcalm⟩

theorem causedBy_nextListener (ha : a ∈ nextListenerActs st) : a.CausedBy st .nextListener := by
  unfold nextListenerActs at ha
  split at ha
  · exact ha.elim
  · next c hclosing =>
    obtain rfl := Set.mem_singleton_iff.mp ha
    exact ⟨rfl, c, [], hclosing, Or.inl rfl⟩
  · next c l ls hclosing =>
    rcases ha with ha | rfl | rfl | ⟨err, rfl⟩
    · exact causedBy_listener hclosing ha
    · exact ⟨rfl, c, _, hclosing, Or.inr rfl⟩
    · exact ⟨rfl, c, _, hclosing, Or.inl rfl⟩
    · exact Or.inl rfl

/-! ## All events -/

theorem causedBy_resume {i : ℕ} {frame : Frame} (hf : st.tasks[i]? = some frame)
    (ha : a ∈ resumeActs st frame) : a.CausedBy st (.resume i) := by
  have hgoes : st.GoesOn (.resume i) frame := ⟨i, rfl, hf⟩
  have hloop : ∀ c, frame.loop = some c → st.Processes (.resume i) c :=
    fun c hc => processes_of_task hf hc
  have hserves : ∀ origin s m, frame.serves = some (origin, s, m) →
      st.Serves (.resume i) origin s m := fun origin s m hs => Or.inr ⟨frame, hgoes, hs⟩
  cases frame with
  | nextMessage c rest => exact causedBy_process (by simp [AcceptorState.incoming, hf]) ha
  | validateCredentials c m rest =>
    rcases ha with ⟨verdict, rfl, hinvalid⟩ | ⟨rfl, hsettled, hcredentials⟩
    · exact ⟨hloop c rfl, fun hvalid => absurd hvalid hinvalid⟩
    · exact ⟨hgoes, hsettled, hcredentials⟩
  | getAllowedSenderCompIds c m rest =>
    obtain ⟨verdict, rfl, hvalid⟩ := ha
    exact ⟨hloop c rfl, fun hv => Or.inr ⟨hgoes, hvalid hv⟩⟩
  | validated c m rest verdict =>
    cases verdict with
    | valid => exact causedBy_create hf ha
    | invalid reason => exact causedBy_refuse (hloop c rfl) ha
    | thrown err => exact causedBy_refuse (hloop c rfl) ha
  | closeDelay c rest =>
    rcases ha with rfl | rfl
    · trivial
    · exact hloop c rfl
  | created c s m rest =>
    rcases ha with ⟨metadata, _, rfl⟩ | rfl
    · trivial
    · exact hgoes
  | handlersSet c s m rest =>
    rcases ha with rfl | ha
    · exact ⟨m, rest, hgoes⟩
    · exact causedBy_handleMessage (.started hf) ha
  | logonResponse origin s m error =>
    have hresponds : st.responds (.resume i) = some s := by simp [AcceptorState.responds, hf]
    rcases ha with ((((rfl | rfl) | rfl | rfl) | rfl | rfl) | ha) | rfl | rfl
    · exact hresponds
    · trivial
    · exact hresponds
    · trivial
    · exact fun _ => hresponds
    · trivial
    · exact causedBy_settleMessage (hserves origin s m rfl) ha
    · exact Or.inr (Or.inl ⟨rfl, hresponds⟩)
    · exact hserves origin s m rfl
  | testRequestReply origin s m error =>
    rcases ha with ha | rfl
    · exact causedBy_settleMessage (hserves origin s m rfl) ha
    · exact hserves origin s m rfl
  | messageHandlers origin s m => exact causedBy_runMessageHandlers (hserves origin s m rfl) ha
  | handlerPending origin s m next => exact causedBy_runMessageHandlers (hserves origin s m rfl) ha
  | logoutSent s caller error =>
    have hends : st.ends (.resume i) = [s] := ends_loggedOut hf
    rcases ha with (((rfl | rfl) | rfl | rfl) | ha) | ⟨result, ha, hresult⟩
    · exact fun h => by cases h
    · trivial
    · exact fun h => by cases h
    · trivial
    · refine causedBy_tearDown (by simp [hends]) (fun hcalm => ?_) ha
      rw [completes_eq (by simp), hends]
      simpa [AcceptorState.endingCalls, hf] using hcalm
    · cases caller with
      | user => exact ha.elim
      | registration x dropped =>
        obtain rfl := Set.mem_singleton_iff.mp ha
        exact Or.inr ⟨s, error, hgoes⟩
      | closeAll k =>
        obtain rfl := Set.mem_singleton_iff.mp ha
        exact Or.inr ⟨s, error, hgoes, hresult⟩
  | registration s dropped => exact causedBy_finish (by simp [AcceptorState.mayStore, hf]) ha
  | allClosed k stopping =>
    rcases ha with rfl | rfl
    · exact ⟨k, stopping, hgoes⟩
    · exact ⟨k, stopping, hgoes⟩
  | closeAllSockets =>
    rcases ha with rfl | ⟨c, _, rfl⟩
    · exact hgoes
    · trivial

/-- Every act of an event has its cause. -/
theorem causedBy_of_mem (ha : a ∈ eventActs st e) : a.CausedBy st e := by
  cases e with
  | connect remoteAddress =>
    obtain rfl := Set.mem_singleton_iff.mp ha
    rfl
  | data c data =>
    obtain ⟨hlistener, ha⟩ := ha
    exact causedBy_process (if_pos hlistener) ha
  | socketError c err =>
    rcases ha with ⟨_, rfl⟩ | ⟨hlistener, rfl⟩ | rfl
    · trivial
    · exact Or.inr (Or.inr ⟨c, err, rfl, hlistener⟩)
    · trivial
  | close c =>
    obtain rfl := Set.mem_singleton_iff.mp ha
    rfl
  | nextListener => exact causedBy_nextListener ha
  | resume i =>
    obtain ⟨frame, hf, rfl | ha⟩ := ha
    · rfl
    · exact causedBy_resume hf ha
  | heartbeat s => exact causedBy_send ha
  | reject s err =>
    obtain rfl := Set.mem_singleton_iff.mp ha
    rfl
  | send s m => exact causedBy_send ha
  | logout s reason => exact causedBy_logout .called ha
  | join s roomId =>
    obtain rfl := Set.mem_singleton_iff.mp ha
    rfl
  | leave s roomId =>
    obtain rfl := Set.mem_singleton_iff.mp ha
    rfl
  | handleMessage s m => exact causedBy_handleMessage .called ha
  | registerHandlers s metadata =>
    obtain rfl := Set.mem_singleton_iff.mp ha
    trivial
  | stop =>
    rcases ha with rfl | ⟨s, hs, ha⟩
    · rfl
    · exact causedBy_logout (.stopped hs) ha
  | closeAll =>
    rcases ha with rfl | ⟨s, hs, ha⟩
    · rfl
    · exact causedBy_logout (.closed hs) ha
  | newSession config c =>
    obtain rfl := Set.mem_singleton_iff.mp ha
    exact Or.inr (Or.inl rfl)
  | createSession config c =>
    rcases ha with rfl | rfl
    · exact Or.inr (Or.inr rfl)
    · rfl
  | registerSession s =>
    rcases ha with ⟨_, ha⟩ | ⟨old, hold, ha⟩
    · exact causedBy_finish rfl ha
    · exact causedBy_logout (.replaced (.called hold)) ha
  | removeSession sessionId =>
    obtain rfl := Set.mem_singleton_iff.mp ha
    rfl

end NestQuickfix.Acceptor
