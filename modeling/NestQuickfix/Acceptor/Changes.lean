import NestQuickfix.Acceptor.Unchanged
import NestQuickfix.Lib.Splitting

/-!
# Code that changes the life of sessions

One lemma for each function that changes the life of sessions.
-/

namespace NestQuickfix.Acceptor

open Lib Lib.Exec Lifecycle

/-- The life of the sessions is `k`, except that some may have left LOGGED_ON. -/
def IsAt (k : Lifecycle) (st : AcceptorState) : Prop := Lowered k st.lifecycle

variable {k : Lifecycle} {α β : Type}

/-- Code that keeps the life of sessions. -/
theorem Keeps.triple {x : AcceptorM α} (h : Keeps x) :
    Triple (IsAt k) x (fun _ => IsAt k) (IsAt k) :=
  Ensures.keeps h fun _ _ hstep hk => Lowered.trans hk hstep

/-- A change of the state that is a change of the life of sessions. -/
theorem triple_modify (op : Lifecycle → Lifecycle) {f : AcceptorState → AcceptorState}
    {E : AcceptorState → Prop} (hop : ∀ st, (f st).lifecycle = op st.lifecycle)
    (hmono : ∀ k', Lowered k k' → Lowered (op k) (op k')) :
    Triple (IsAt k) (modify f : AcceptorM Unit) (fun _ => IsAt (op k)) E :=
  .modify fun st hst => by
    rw [IsAt, hop st]
    exact hmono _ hst

theorem IsAt.registry {st : AcceptorState} (h : IsAt k st) : st.registry = k.registry := by
  obtain ⟨l, _, heq⟩ := h
  exact congrArg Lifecycle.registry heq

theorem IsAt.socket {st : AcceptorState} (h : IsAt k st) (s : ℕ) :
    (st.sessions s).socket = k.socket s := by
  obtain ⟨l, _, heq⟩ := h
  exact congrFun (congrArg Lifecycle.socket heq) s

theorem IsAt.sessionId {st : AcceptorState} (h : IsAt k st) (s : ℕ) :
    (st.sessions s).sessionId = k.sessionId s := by
  obtain ⟨l, _, heq⟩ := h
  exact congrFun (congrArg Lifecycle.sessionId heq) s

theorem IsAt.trace {st : AcceptorState} (h : IsAt k st) : st.lifecycle.trace = k.trace := by
  obtain ⟨l, _, heq⟩ := h
  rw [heq]

/-- Reading the state. -/
theorem triple_get {f : AcceptorState → AcceptorM β} {R : β → AcceptorState → Prop}
    {E : AcceptorState → Prop} (h : ∀ st, IsAt k st → Triple (IsAt k) (f st) R E) :
    Triple (IsAt k) (get >>= f) R E :=
  .get_bind fun st hst => (h st hst).conseq (by rintro _ rfl; exact hst) (fun _ _ => id) fun _ => id

/-! ## Disconnecting -/

theorem triple_observe {E : AcceptorState → Prop} {o : Observation} (h : o.vital = true) :
    Triple (IsAt k) (observe o) (fun _ => IsAt (k.observe o)) E :=
  triple_modify (fun k => k.observe o) (fun st => by rw [lifecycle_observe, if_pos h])
    fun _ hk => hk.observe o

theorem triple_stop {E : AcceptorState → Prop} (s : ℕ) :
    Triple (IsAt k)
      (updateSession s fun x => Session.clearTimers { x with state := .disconnected })
      (fun _ => IsAt (k.stop s)) E := by
  refine triple_modify (fun k => k.stop s) (fun st => ?_) fun _ hk => hk.stop s
  have htimer := Function.comp_update Session.heartbeatTimer st.sessions s
    (Session.clearTimers { st.sessions s with state := .disconnected })
  have hloggedOn := Function.comp_update (fun x => decide (Session.state x = .loggedOn))
    st.sessions s (Session.clearTimers { st.sessions s with state := .disconnected })
  unfold AcceptorState.lifecycle Lifecycle.stop
  simp only [Lifecycle.mk.injEq, true_and, and_true]
  exact ⟨proj_update (g := Session.sessionId) rfl, proj_update (g := Session.socket) rfl, htimer,
    hloggedOn⟩

/-- The listeners of a session's socket are removed. -/
theorem triple_removeAllListeners {E : AcceptorState → Prop} (s : ℕ) :
    Triple (IsAt k) (removeAllListeners s) (fun _ => IsAt (k.strip (k.socket s))) E := by
  refine triple_get fun st hst => ?_
  rw [hst.socket]
  refine triple_modify (fun x => x.strip (k.socket s)) (fun st' => ?_) fun _ hk => hk.strip _
  have hlisteners := Function.comp_update Connection.closeListeners st'.sockets (k.socket s)
    (st'.sockets (k.socket s)).removeAllListeners
  unfold AcceptorState.lifecycle Lifecycle.strip
  simp only [Lifecycle.mk.injEq, true_and, and_true]
  exact ⟨proj_update (g := Connection.closed) rfl, hlisteners⟩

/-- `handleDisconnect` stops the session and reports it; the listeners of the socket are
removed unless a handler or a listener throws. -/
theorem triple_handleDisconnect (s : ℕ) :
    Triple (IsAt k) (handleDisconnect s)
      (fun _ => IsAt (((k.disconnect s).report s).strip (k.socket s)))
      (fun st => IsAt (k.disconnect s) st ∨ IsAt ((k.disconnect s).report s) st) := by
  refine .bind (triple_stop s) fun _ => .bind (Q := fun _ => IsAt (k.disconnect s)) ?_ fun _ =>
    .bind (Q := fun _ => IsAt ((k.disconnect s).report s)) ?_ fun _ => triple_removeAllListeners s
  · exact .bind (triple_observe rfl) fun _ =>
      (keeps_callHandlers s).triple.conseq (fun _ => id) (fun _ _ => id) fun _ => Or.inl
  · exact .bind (triple_observe rfl) fun _ =>
      keeps_callUser.triple.conseq (fun _ => id) (fun _ _ => id) fun _ => Or.inr

theorem triple_removeSession {E : AcceptorState → Prop} (sessionId : JSString) :
    Triple (IsAt k) (removeSession sessionId) (fun _ => IsAt (k.remove sessionId)) E := by
  refine triple_get fun st hst => ?_
  split
  · exact triple_modify (fun x => x.remove sessionId) (fun _ => rfl) fun _ hk => hk.remove sessionId
  · next hhas =>
    rw [hst.registry, OrderedMap.has_iff] at hhas
    have hk : k.remove sessionId = k := by
      rw [Lifecycle.remove, OrderedMap.erase_of_notMem hhas]
    rw [hk]
    exact .pure fun _ => id

theorem triple_removeId {E : AcceptorState → Prop} (s : ℕ) :
    Triple (IsAt k) (removeId s) (fun _ => IsAt (k.remove (k.sessionId s))) E := by
  refine triple_get fun st hst => ?_
  rw [hst.sessionId]
  exact triple_removeSession _

theorem noThrow_endOwnSocket (s : ℕ) : NoThrow (endOwnSocket s) := .get_bind fun _ => .modify _

theorem noThrow_endWritable (s : ℕ) : NoThrow (endWritable s) :=
  .get_bind fun _ => .ite (.modify _) (.pure ())

/-! ## Ending sessions -/

/-- An attempt to end a session has been made, completely or not. -/
def EndedOne (s : ℕ) (k : Lifecycle) (b : Bool) (st : AcceptorState) : Prop :=
  ∃ k', TornDown s k b k' ∧ IsAt k' st

/-- Some sessions of a list have been ended. -/
def Ended (ss : List ℕ) (k : Lifecycle) (st : AcceptorState) : Prop :=
  ∃ k', TearDowns ss k k' ∧ IsAt k' st

theorem EndedOne.mono {s : ℕ} {b : Bool} (st st' : AcceptorState) (h : SameLife st st') :
    EndedOne s k b st → EndedOne s k b st' :=
  fun ⟨k', hk', hst⟩ => ⟨k', hk', Lowered.trans hst h⟩

theorem Ended.mono {ss : List ℕ} (st st' : AcceptorState) (h : SameLife st st') :
    Ended ss k st → Ended ss k st' :=
  fun ⟨k', hk', hst⟩ => ⟨k', hk', Lowered.trans hst h⟩

theorem EndedOne.ended {s : ℕ} {b : Bool} {st : AcceptorState} (h : EndedOne s k b st) :
    Ended [s] k st := by
  obtain ⟨k', hk', hst⟩ := h
  exact ⟨k', .next hk' .stop, hst⟩

/-- Disconnecting, some silent code, and removing the entry. -/
theorem triple_tearDown {w : AcceptorM Unit} (s : ℕ)
    (hw : Triple (IsAt (((k.disconnect s).report s).strip (k.socket s))) w
      (fun _ => EndedOne s k true) (fun st => ∃ b, EndedOne s k b st)) :
    Triple (IsAt k) (handleDisconnect s >>= fun _ => w) (fun _ => EndedOne s k true)
      (fun st => ∃ b, EndedOne s k b st) := by
  refine .bind ((triple_handleDisconnect s).conseq (fun _ => id) (fun _ _ => id) ?_) fun _ => hw
  rintro st (h | h)
  · exact ⟨false, _, .handlerThrew, h⟩
  · exact ⟨false, _, .listenerThrew, h⟩

theorem triple_removeId_endedOne {E : AcceptorState → Prop} (s : ℕ) :
    Triple (IsAt (((k.disconnect s).report s).strip (k.socket s))) (removeId s)
      (fun _ => EndedOne s k true) E :=
  (triple_removeId s).conseq (fun _ => id) (fun _ _ h => ⟨_, .done, h⟩) fun _ => id

/-- `logout` after its first event. -/
theorem triple_endAfterLogout (s : ℕ) :
    Triple (IsAt k) (do handleDisconnect s; endWritable s; removeId s; emit s .loggedOut)
      (fun _ => EndedOne s k true) (fun st => ∃ b, EndedOne s k b st) := by
  refine triple_tearDown s ?_
  refine .bind ((noThrow_endWritable s).triple (keeps_endWritable s).triple) fun _ =>
    .bind (triple_removeId_endedOne s) fun _ => ?_
  exact (Ensures.keeps (keeps_emit s (by decide)) EndedOne.mono).conseq (fun _ => id)
    (fun _ _ => id) fun _ h => ⟨true, h⟩

theorem triple_handleLogout (s : ℕ) :
    Triple (IsAt k) (handleLogout s) (fun _ => Ended [s] k) (Ended [s] k) := by
  have hstop : ∀ st, IsAt k st → Ended [s] k st := fun _ h => ⟨k, .stop, h⟩
  refine .bind ((keeps_runHandlers s (by decide)).triple.conseq (fun _ => id) (fun _ _ => id) hstop)
    fun _ => .bind (Q := fun _ => IsAt k) ?_ fun _ =>
      .bind ((keeps_emit s (by decide)).triple.conseq (fun _ => id) (fun _ _ => id) hstop)
        fun _ => ?_
  · refine (Keeps.triple ?_).conseq (fun _ => id) (fun _ _ => id) hstop
    exact keeps_updateSession (fun _ => rfl) (fun _ => rfl) (fun _ => rfl) fun _ h => by cases h
  · refine (triple_tearDown s ?_).conseq (fun _ => id) (fun _ _ h => h.ended)
      fun _ ⟨_, h⟩ => h.ended
    exact .bind ((noThrow_endOwnSocket s).triple (keeps_endOwnSocket s).triple) fun _ =>
      triple_removeId_endedOne s

/-- The cleanup ends sessions that are on the socket. -/
theorem triple_cleanupSessions (c : ℕ) (ss : List ℕ) :
    Triple (IsAt k) (cleanupSessions c ss)
      (fun _ => Ended (ss.filter fun s => k.socket s = c) k)
      (Ended (ss.filter fun s => k.socket s = c) k) := by
  induction ss generalizing k with
  | nil => exact .pure fun _ h => ⟨k, .stop, h⟩
  | cons s ss ih =>
    refine triple_get fun st hst => ?_
    rw [hst.socket]
    split
    · next hc =>
      have hfilter : (s :: ss).filter (fun s => k.socket s = c) =
          s :: ss.filter (fun s => k.socket s = c) := List.filter_cons_of_pos (by simpa using hc)
      rw [hfilter]
      have hrest : ∀ st, Ended (ss.filter fun s => k.socket s = c)
          ((((k.disconnect s).report s).strip (k.socket s)).remove (k.sessionId s)) st →
          Ended (s :: ss.filter fun s => k.socket s = c) k st :=
        fun _ ⟨k', hk', hst⟩ => ⟨k', .next .done hk', hst⟩
      refine .bind ((triple_handleDisconnect s).conseq (fun _ => id) (fun _ _ => id) ?_)
        fun _ => .bind (triple_removeId s) fun _ =>
          ih.conseq (fun _ => id) (fun _ => hrest) hrest
      rintro st (h | h)
      · exact ⟨_, .next .handlerThrew .stop, h⟩
      · exact ⟨_, .next .listenerThrew .stop, h⟩
    · next hc =>
      have hfilter : (s :: ss).filter (fun s => k.socket s = c) =
          ss.filter (fun s => k.socket s = c) := List.filter_cons_of_neg (by simpa using hc)
      rw [hfilter]
      exact ih

/-! ## Handling a message -/

/-- What `handleMessage` does to the life of sessions. -/
inductive Handled (s : ℕ) (m : Message) (k : Lifecycle) : Lifecycle → Prop
  /-- A Logon whose response could not be written. -/
  | unanswered (h : m.getField Fields.msgType = MsgType.logon) : Handled s m k (k.logOn s)
  | answered (h : m.getField Fields.msgType = MsgType.logon) :
      Handled s m k ((k.logOn s).observe (.answered s))
  | logout {k' : Lifecycle} (h : m.getField Fields.msgType = MsgType.logout)
      (hk : TearDowns [s] k k') : Handled s m k k'
  | other (h : m.getField Fields.msgType ≠ MsgType.logon) : Handled s m k k

/-- A message has been handled. -/
def HandledAt (s : ℕ) (m : Message) (k : Lifecycle) (st : AcceptorState) : Prop :=
  ∃ k', Handled s m k k' ∧ IsAt k' st

theorem HandledAt.mono {s : ℕ} {m : Message} (st st' : AcceptorState) (h : SameLife st st') :
    HandledAt s m k st → HandledAt s m k st' :=
  fun ⟨k', hk', hst⟩ => ⟨k', hk', Lowered.trans hst h⟩

theorem triple_logOn {E : AcceptorState → Prop} (s : ℕ) :
    Triple (IsAt k) (updateSession s fun x => { x with state := .loggedOn })
      (fun _ => IsAt (k.logOn s)) E := by
  refine triple_modify (fun k => k.logOn s) (fun st => ?_) fun _ hk => hk.logOn s
  have hloggedOn := Function.comp_update (fun x => decide (Session.state x = .loggedOn))
    st.sessions s { st.sessions s with state := .loggedOn }
  unfold AcceptorState.lifecycle Lifecycle.logOn
  simp only [Lifecycle.mk.injEq, true_and, and_true]
  exact ⟨proj_update (g := Session.sessionId) rfl, proj_update (g := Session.socket) rfl,
    proj_update (g := Session.heartbeatTimer) rfl, hloggedOn⟩

theorem triple_startLogon (origin : Origin) {s : ℕ} {m : Message}
    (hm : m.getField Fields.msgType = MsgType.logon) :
    Triple (IsAt k) (startLogon origin s m) (fun _ => HandledAt s m k) (HandledAt s m k) := by
  have hunanswered : ∀ st, IsAt (k.logOn s) st → HandledAt s m k st :=
    fun _ h => ⟨_, .unanswered hm, h⟩
  refine .bind (triple_logOn s) fun _ => .bind (Q := fun _ => HandledAt s m k) ?_ fun error =>
    Ensures.keeps (keeps_suspend rfl) HandledAt.mono
  refine triple_get fun st _ => .bind
    ((keeps_startSend s _).triple.conseq (fun _ => id) (fun _ _ => id) hunanswered) fun error => ?_
  cases error with
  | none => exact .bind (triple_observe rfl) fun _ => .pure fun _ h => ⟨_, .answered hm, h⟩
  | some e => exact .pure hunanswered

theorem triple_handleMessage (origin : Origin) (s : ℕ) (m : Message) :
    Triple (IsAt k) (handleMessage origin s m) (fun _ => HandledAt s m k) (HandledAt s m k) := by
  unfold handleMessage
  split
  · next hm => exact triple_startLogon origin hm
  · next hm =>
    have hother : ∀ {x : AcceptorM Unit}, Keeps x →
        Triple (IsAt k) x (fun _ => HandledAt s m k) (HandledAt s m k) := fun hx =>
      hx.triple.conseq (fun _ => id) (fun _ _ h => ⟨k, .other hm, h⟩) fun _ h => ⟨k, .other hm, h⟩
    split
    · next hlogout =>
      have hended : ∀ st, Ended [s] k st → HandledAt s m k st :=
        fun _ ⟨k', hk', hst⟩ => ⟨k', .logout hlogout hk', hst⟩
      have hhandled :=
        (triple_handleLogout (k := k) s).conseq (fun _ => id) (fun _ => hended) hended
      refine .bind hhandled.attempt fun result => ?_
      cases result with
      | ok _ => exact Ensures.keeps (keeps_suspend rfl) HandledAt.mono
      | error e => exact Ensures.keeps (keeps_settleMessage origin _) HandledAt.mono
    · split
      · exact hother (keeps_startTestRequestReply origin s m)
      · exact hother (keeps_runMessageHandlers origin s m 0)

/-! ## Registration -/

/-- What the end of `registerSession` does to the life of sessions. -/
inductive Registered (s : ℕ) (k : Lifecycle) : Lifecycle → Prop
  | stored (h : k.limitReached = false) : Registered s k (k.register s)
  | refused (h : k.limitReached = true) : Registered s k k
  | unhandled {e : JSError} (h : k.limitReached = true) :
      Registered s k (k.observe (.unhandled s e))

/-- What `registerSession` does to the life of sessions, given the states of the sessions. -/
inductive Registering (states : ℕ → SessionState) (s : ℕ) (k : Lifecycle) : Lifecycle → Prop
  | finished {k' : Lifecycle} (hfree : k.registry.get? (k.sessionId s) = none)
      (hk : Registered s k k') : Registering states s k k'
  /-- The logout of the old session fails at once. -/
  | retry {old : ℕ} (hold : k.registry.get? (k.sessionId s) = some old)
      (hstate : states old = .disconnected) : Registering states s k (k.suspend (.registering s none))
  /-- The logout of the old session is under way. -/
  | waiting {old : ℕ} (hold : k.registry.get? (k.sessionId s) = some old)
      (hstate : states old ≠ .disconnected) :
      Registering states s k (k.suspend (.registering s (some old)))

theorem triple_suspend {E : AcceptorState → Prop} {frame : Frame} {p : Pending}
    (h : frame.pending = some p) :
    Triple (IsAt k) (suspend frame) (fun _ => IsAt (k.suspend p)) E :=
  triple_modify (fun k => k.suspend p) (fun st => by rw [lifecycle_suspend, h])
    fun _ hk => hk.suspend p

theorem triple_setSession {E : AcceptorState → Prop} (s : ℕ) :
    Triple (IsAt k) (setSession s) (fun _ => IsAt (k.register s)) E :=
  triple_modify (fun k => k.register s) (fun _ => rfl) fun _ hk => hk.register s

/-- Code run in a known state. -/
theorem triple_at {st : AcceptorState} {x : AcceptorM α} {Q : α → AcceptorState → Prop}
    {E : AcceptorState → Prop} (h : Triple (IsAt st.lifecycle) x Q E) :
    Triple (fun st' => st' = st) x Q E :=
  h.conseq (by rintro _ rfl; exact Lowered.refl _) (fun _ _ => id) fun _ => id

theorem triple_finishRegistration {E : AcceptorState → Prop} (st : AcceptorState) (s : ℕ)
    (dropped : Bool) : Triple (fun st' => st' = st) (finishRegistration s dropped)
      (fun _ st' => ∃ k', Registered s st.lifecycle k' ∧ IsAt k' st') E := by
  refine .get_bind ?_
  rintro st rfl
  refine triple_at ?_
  split
  · next hlimit =>
    split
    · exact (triple_observe rfl).conseq (fun _ => id) (fun _ _ h => ⟨_, .unhandled hlimit, h⟩)
        fun _ => id
    · exact .pure fun _ h => ⟨_, .refused hlimit, h⟩
  · next hlimit =>
    exact (triple_setSession s).conseq (fun _ => id)
      (fun _ _ h => ⟨_, .stored (Bool.eq_false_iff.mpr hlimit), h⟩) fun _ => id

theorem noThrow_startSend (s : ℕ) (m : Message) : NoThrow (startSend s m) := by
  refine .get_bind fun _ => .bind (.modify _) fun _ => .bind ?_ fun _ => .pure _
  unfold observeWrite
  split
  · exact .pure ()
  · exact .modify _

theorem triple_registerSession {E : AcceptorState → Prop} (st : AcceptorState) (s : ℕ)
    (dropped : Bool) : Triple (fun st' => st' = st) (registerSession s dropped)
      (fun _ st' => ∃ k', Registering (fun x => (st.sessions x).state) s st.lifecycle k' ∧
        IsAt k' st') E := by
  refine .get_bind ?_
  rintro st rfl
  split
  · next hfree =>
    exact (triple_finishRegistration st s dropped).conseq (fun _ => id)
      (fun _ _ ⟨k', hk', hst⟩ => ⟨k', .finished hfree hk', hst⟩) fun _ => id
  · next old hold =>
    refine .get_bind ?_
    rintro st rfl
    refine triple_at ?_
    split
    · next hstate =>
      exact (triple_suspend rfl).conseq (fun _ => id) (fun _ _ h => ⟨_, .retry hold hstate, h⟩)
        fun _ => id
    · next hstate =>
      refine .bind (NoThrow.triple (.modify _) (Keeps.triple ?_)) fun _ =>
        .bind ((noThrow_startSend old _).triple (keeps_startSend old _).triple) fun error =>
          (triple_suspend rfl).conseq (fun _ => id) (fun _ _ h => ⟨_, .waiting hold hstate, h⟩)
            fun _ => id
      exact keeps_updateSession (fun _ => rfl) (fun _ => rfl) (fun _ => rfl) fun _ h => by cases h

/-! ## Creation -/

/-- The state after `new Session`. -/
def AcceptorState.withSession (st : AcceptorState) (config : SessionConfig) (c : ℕ) :
    AcceptorState :=
  { st with
    sessions := Function.update st.sessions st.nextSession
      ⟨config, c, .disconnected, true, 1, ⟨fun _ => [], []⟩⟩
    nextSession := st.nextSession + 1 }

theorem lifecycle_withSession (st : AcceptorState) (config : SessionConfig) (c : ℕ) :
    (st.withSession config c).lifecycle =
      st.lifecycle.create (sessionKey config.senderCompId config.targetCompId) c := by
  have hproj : ∀ {β : Type} (g : Session → β) (x : Session),
      (fun s => g (Function.update st.sessions st.nextSession x s)) =
        Function.update (fun s => g (st.sessions s)) st.nextSession (g x) :=
    fun g x => Function.comp_update g st.sessions st.nextSession x
  unfold AcceptorState.lifecycle Lifecycle.create AcceptorState.withSession
  simp only [Lifecycle.mk.injEq, true_and, and_true]
  exact ⟨hproj Session.sessionId _, hproj Session.socket _, hproj Session.heartbeatTimer _,
    hproj (fun x => decide (x.state = .loggedOn)) _⟩

theorem states_withSession (st : AcceptorState) (config : SessionConfig) (c : ℕ) :
    (fun x => ((st.withSession config c).sessions x).state) =
      Function.update (fun x => (st.sessions x).state) st.nextSession .disconnected :=
  Function.comp_update Session.state st.sessions st.nextSession _

theorem triple_newSession {E : AcceptorState → Prop} (st : AcceptorState) (config : SessionConfig)
    (c : ℕ) : Triple (fun st' => st' = st) (newSession config c)
      (fun s st' => s = st.nextSession ∧ st' = st.withSession config c) E := by
  refine .get_bind ?_
  rintro st rfl
  refine .bind (Q := fun _ st' => st' = st.withSession config c) (.modify ?_) fun _ => .pure ?_
  · rintro _ rfl
    rfl
  · rintro _ rfl
    exact ⟨rfl, rfl⟩

/-- What `createNewSession` does to the life of sessions. -/
def Created (st : AcceptorState) (c : ℕ) (logon : Message) (k' : Lifecycle) : Prop :=
  Registering (Function.update (fun x => (st.sessions x).state) st.nextSession .disconnected)
    st.nextSession (st.lifecycle.create (buildSessionId logon) c) k'

theorem triple_createNewSession {E : AcceptorState → Prop} (st : AcceptorState) (c : ℕ)
    (logon : Message) : Triple (fun st' => st' = st) (createNewSession c logon)
      (fun s st' => s = st.nextSession ∧ ∃ k', Created st c logon k' ∧ IsAt k' st') E := by
  refine .get_bind ?_
  rintro st rfl
  refine .bind (triple_newSession st _ c) fun s => ?_
  by_cases hs : s = st.nextSession
  · subst s
    refine .bind (Q := fun _ st' => ∃ k', Created st c logon k' ∧ IsAt k' st') ?_
      fun _ => .pure fun _ h => ⟨rfl, h⟩
    refine (triple_registerSession (st.withSession _ c) st.nextSession true).conseq
      (fun _ h => h.2) ?_ fun _ => id
    rintro _ st' ⟨k', hk', hst⟩
    rw [states_withSession, lifecycle_withSession] at hk'
    exact ⟨k', hk', hst⟩
  · intro st' hst'
    exact absurd hst'.1 hs

/-! ## Going on with a task -/

/-- The state after task `i` has been taken. -/
def AcceptorState.without (st : AcceptorState) (i : ℕ) : AcceptorState :=
  { st with tasks := st.tasks.eraseIdx i }

theorem lifecycle_without {st : AcceptorState} {i : ℕ} {frame : Frame}
    (h : st.tasks[i]? = some frame) :
    (st.without i).lifecycle = st.lifecycle.taken frame.pending := by
  obtain ⟨l1, l2, htasks, herase, _⟩ := exists_split_getElem? h
  have hpending : ((st.without i).tasks.filterMap Frame.pending : Multiset Pending) =
      (st.lifecycle.taken frame.pending).pending := by
    have hleft : (st.without i).tasks = l1 ++ l2 := herase
    rw [hleft, List.filterMap_append]
    cases hp : frame.pending with
    | none =>
      change _ = ((st.tasks.filterMap Frame.pending : List Pending) : Multiset Pending)
      rw [htasks, List.filterMap_append, List.filterMap_cons_none hp]
    | some p =>
      change _ = ((st.tasks.filterMap Frame.pending : List Pending) : Multiset Pending).erase p
      rw [htasks, List.filterMap_append, List.filterMap_cons_some hp,
        Multiset.coe_eq_coe.mpr List.perm_middle, ← Multiset.cons_coe, Multiset.erase_cons_head]
  cases hp : frame.pending with
  | none =>
    rw [hp] at hpending
    unfold AcceptorState.lifecycle
    rw [hpending]
    rfl
  | some p =>
    rw [hp] at hpending
    unfold AcceptorState.lifecycle
    rw [hpending]
    rfl

theorem mem_pending_of_task {st : AcceptorState} {i : ℕ} {frame : Frame} {p : Pending}
    (h : st.tasks[i]? = some frame) (hp : frame.pending = some p) : p ∈ st.lifecycle.pending :=
  Multiset.mem_coe.mpr (List.mem_filterMap.mpr ⟨frame, List.mem_of_getElem? h, hp⟩)

/-! ## Processing messages -/

/-- Whether a message comes to `handleNonLogonMessage`: it has a type other than Logon, and
logging it does not throw. -/
def routable (m : Message) : Bool :=
  m.hasField Fields.msgType && m.toString.isOk && m.getField Fields.msgType ≠ MsgType.logon

/-- The session to which a message is passed. -/
def Lifecycle.routed (k : Lifecycle) (m : Message) : Option ℕ :=
  if routable m then k.registry.get? (buildSessionId m) else none

/-- What the processing of a chunk up to its first `await` does to the life of sessions. -/
inductive Processed (c : ℕ) (ms : List Message) (k : Lifecycle) : Lifecycle → Prop
  | routed {m : Message} {s : ℕ} {k' : Lifecycle} (hm : ms.head? = some m)
      (hs : k.routed m = some s) (hk : Handled s m (k.observe (.dispatched c s m)) k') :
      Processed c ms k k'
  | unrouted (h : ms.head?.bind k.routed = none) : Processed c ms k k

theorem triple_processMessages (c : ℕ) (ms : List Message) :
    Triple (IsAt k) (processMessages c ms) (fun _ st => ∃ k', Processed c ms k k' ∧ IsAt k' st)
      (fun st => ∃ k', Processed c ms k k' ∧ IsAt k' st) := by
  have hkeeps : ∀ {x : AcceptorM Unit}, Keeps x → ms.head?.bind k.routed = none →
      Triple (IsAt k) x (fun _ st => ∃ k', Processed c ms k k' ∧ IsAt k' st)
        (fun st => ∃ k', Processed c ms k k' ∧ IsAt k' st) := fun hx h =>
    hx.triple.conseq (fun _ => id) (fun _ _ hst => ⟨k, .unrouted h, hst⟩)
      fun _ hst => ⟨k, .unrouted h, hst⟩
  cases ms with
  | nil => exact hkeeps (.pure ()) rfl
  | cons m rest =>
    rw [processMessages]
    split
    · next htype =>
      split
      · next e he =>
        refine hkeeps (keeps_handleDataError e c) ?_
        simp [Lifecycle.routed, routable, he, Except.isOk, Except.toBool]
      · next raw hraw =>
        refine .bind ((NoThrow.triple (.modify _) (keeps_observe rfl).triple)) fun _ => ?_
        split
        · next hlogon =>
          refine hkeeps (keeps_validateLogon c m rest) ?_
          simp [Lifecycle.routed, routable, hlogon]
        · next hlogon =>
          refine triple_get fun st hst => ?_
          rw [hst.registry]
          have hroutable : routable m = true := by
            simp [routable, htype, hraw, hlogon, Except.isOk, Except.toBool]
          have hrouted : k.routed m = k.registry.get? (buildSessionId m) := if_pos hroutable
          split
          · next hnone =>
            exact hkeeps (keeps_refuseMessage c m rest _) (hrouted.trans hnone)
          · next s hs =>
            refine .bind (triple_observe rfl) fun _ => ?_
            have hk : ∀ st, HandledAt s m (k.observe (.dispatched c s m)) st →
                ∃ k', Processed c (m :: rest) k k' ∧ IsAt k' st := by
              rintro st ⟨k', hk', hst'⟩
              exact ⟨k', .routed rfl (hrouted.trans hs) hk', hst'⟩
            exact (triple_handleMessage _ s m).conseq (fun _ => id) (fun _ => hk) hk
    · next htype =>
      refine hkeeps (keeps_suspend rfl) ?_
      simp [Lifecycle.routed, routable, htype]

end NestQuickfix.Acceptor
