import NestQuickfix.Acceptor.Acts

/-!
# What each function performs

One lemma for each function: the acts that lead from the state it is called in to the
state it ends in, whether or not it throws.
-/

namespace NestQuickfix.Acceptor

open Lib Lib.Exec

/-- From a state on, acceptor code performs acts of a set. -/
abbrev Performs {α : Type} (A : Set Act) (st : AcceptorState) (x : AcceptorM α) : Prop :=
  Does Act.apply A st x

variable {A : Set Act} {st : AcceptorState}

/-! ## Elementary actions -/

theorem result_updateSession (s : ℕ) (f : Session → Session) :
    (updateSession s f).result st = (.ok (), st.withSessionAs s f) := rfl

theorem result_updateSocket (c : ℕ) (f : Connection → Connection) :
    (updateSocket c f).result st = (.ok (), st.withSocketAs c f) := rfl

theorem result_observe (o : Observation) :
    (observe o).result st = (.ok (), (Act.observe o).apply st) := rfl

theorem performs_callUser (h : .consume ∈ A) : Performs A st callUser := by
  apply Does.get_bind
  refine Does.bind (Does.modify .consume h rfl) fun _ _ => ?_
  split
  · exact Does.pure ()
  · exact Does.throw _

theorem performs_callAll {α : Type} (h : .consume ∈ A) (as : List α) :
    Performs A st (Exec.forEach as fun _ => callUser) :=
  Does.forEach fun _ _ _ _ => performs_callUser h

theorem performs_observe {o : Observation} (h : .observe o ∈ A) : Performs A st (observe o) :=
  Does.modify _ h rfl

theorem performs_suspend {frame : Frame} (h : .suspend frame ∈ A) :
    Performs A st (suspend frame) :=
  Does.modify _ h rfl

theorem performs_destroy {c : ℕ} (h : .destroy c ∈ A) : Performs A st (destroy c) :=
  Does.modify _ h rfl

theorem performs_setState {s : ℕ} {state : SessionState} (h : .setState s state ∈ A) :
    Performs A st (updateSession s fun x => { x with state := state }) :=
  Does.modify _ h rfl

theorem performs_runHandlers (s : ℕ) (kind : HandlerKind) (h : ranActs s kind ⊆ A) :
    Performs A st (runHandlers s kind) := by
  apply Does.bind (performs_observe (h (Or.inl rfl)))
  intro _ st'
  exact Does.get_bind (performs_callAll (h (Or.inr rfl)) _)

theorem performs_emit (s : ℕ) (event : SessionEvent) (h : emitActs s event ⊆ A) :
    Performs A st (emit s event) := by
  apply Does.bind (performs_observe (h (Or.inl rfl)))
  intro _ st'
  exact performs_callUser (h (Or.inr rfl))

theorem performs_addHandlers (s : ℕ) (metadata : FixMetadata) (h : .addHandlers s metadata ∈ A) :
    Performs A st (registerSessionHandlers s metadata) :=
  Does.modify _ h rfl

theorem performs_startSend (s : ℕ) (m : Message) (h : sendActs s ⊆ A) :
    Performs A st (startSend s m) := by
  apply Does.get_bind
  refine Does.bind (Does.modify (.count s) (h (Or.inl rfl)) rfl) fun _ _ =>
    Does.bind ?_ fun _ _ => Does.pure _
  unfold observeWrite
  split
  · exact Does.pure ()
  · exact performs_observe (h (Or.inr ⟨_, _, rfl⟩))

theorem performs_sendError (error : Option JSError) : Performs A st (sendError error) :=
  Does.get_bind (Does.pure _)

theorem performs_heartbeat (s : ℕ) (h : sendActs s ⊆ A) : Performs A st (heartbeat s) := by
  apply Does.get_bind
  apply Does.ite
  · intro _
    exact Does.bind (performs_startSend s _ h) fun _ _ => Does.pure _
  · intro _
    exact Does.pure ()

theorem performs_newSession (config : SessionConfig) (c : ℕ) (h : .create config c ∈ A) :
    Performs A st (newSession config c) := by
  apply Does.get_bind
  exact Does.bind (Does.modify (.create config c) h rfl) fun _ _ => Does.pure _

theorem result_newSession (config : SessionConfig) (c : ℕ) : (newSession config c).result st =
    (.ok st.nextSession, (Act.create config c).apply st) := rfl

theorem performs_createSession (config : SessionConfig) (c : ℕ) (hcreate : .create config c ∈ A)
    (hregister : .register st.nextSession ∈ A) : Performs A st (createSession config c) := by
  apply Does.get_bind
  apply Does.ite
  · intro _
    exact Does.throw _
  · intro _
    exact Does.bind_of_path (result_newSession config c) (.single hcreate)
      (Does.modify _ hregister rfl)

theorem after_removeSession (sessionId : JSString) :
    (removeSession sessionId).after st = st.withoutEntry sessionId := by
  unfold removeSession AcceptorState.withoutEntry
  rw [after_bind_of_ok (result_get st)]
  split <;> rfl

theorem after_removeId (s : ℕ) :
    (removeId s).after st = st.withoutEntry (st.sessions s).sessionId := by
  unfold removeId
  rw [after_bind_of_ok (result_get st)]
  exact after_removeSession _

theorem performs_removeSession (sessionId : JSString) (h : .remove sessionId ∈ A) :
    Performs A st (removeSession sessionId) := by
  unfold Performs Does
  rw [after_removeSession]
  exact .single h

/-- The entry of a session is only removed after its timers. -/
theorem performs_removeId (s : ℕ) (hs : (st.sessions s).heartbeatTimer = false)
    (h : .removeId s ∈ A) : Performs A st (removeId s) := by
  have hpath : Path Act.apply A st (st.withoutEnded s) := .single h
  unfold Performs Does
  rw [after_removeId]
  unfold AcceptorState.withoutEnded at hpath
  rwa [hs] at hpath

theorem performs_removeAllListeners (s : ℕ) (h : .strip s ∈ A) :
    Performs A st (removeAllListeners s) :=
  Does.get_bind (Does.modify (.strip s) h rfl)

theorem result_endOwnSocket (s : ℕ) :
    (endOwnSocket s).result st = (.ok (), (Act.endSocket s).apply st) := rfl

theorem performs_endWritable (s : ℕ) (h : .endSocket s ∈ A) : Performs A st (endWritable s) := by
  apply Does.get_bind
  apply Does.ite
  · intro _
    exact Does.modify (.endSocket s) h rfl
  · intro _
    exact Does.pure ()

theorem sessions_endWritable (s : ℕ) : ((endWritable s).after st).sessions = st.sessions :=
  (performs_endWritable (A := {.endSocket s}) s rfl).eq_of (f := AcceptorState.sessions)
    fun st1 a ha => by
      obtain rfl := Set.mem_singleton_iff.mp ha
      exact sessions_apply rfl st1

/-! ## Ending a session -/

/-- What `handleDisconnect` does after it has disconnected the session. -/
theorem path_handleDisconnect (s : ℕ)
    (h : emitActs s .disconnect ∪
      {a | st.input.calmFor (st.disconnectCalls s) = true ∧ a = .strip s} ⊆ A) :
    Path Act.apply A ((Act.disconnect s).apply st) ((handleDisconnect s).after st) := by
  have hconsume : .consume ∈ A := h (Or.inl (Or.inr rfl))
  unfold handleDisconnect
  rw [after_bind_of_ok (result_updateSession s _)]
  unfold runHandlers
  rw [bind_assoc, after_bind_of_ok (result_observe _)]
  have hhandlers : ((((Act.disconnect s).apply st).sessions s).handlers.simple .disconnected) =
      (st.sessions s).handlers.simple .disconnected := by
    simp [Act.apply, AcceptorState.withSessionAs, Session.clearTimers]
  have hcalls : Calls ((st.sessions s).handlers.simple .disconnected).length
      ((Act.disconnect s).apply st) (get >>= fun st : AcceptorState =>
        Exec.forEach ((st.sessions s).handlers.simple .disconnected) fun _ => callUser) :=
    hhandlers ▸ Calls.get_bind (Calls.forEach _ fun _ _ => calls_callUser)
  refine Does.bind_of_ok (Does.get_bind (performs_callAll hconsume _)) fun _ st1 hr1 _ =>
    Does.bind_of_ok (performs_emit s .disconnect fun a ha => h (Or.inl ha)) fun _ st2 hr2 _ => ?_
  obtain ⟨hcalm1, hinput1⟩ := hcalls.ok _ _ hr1
  obtain ⟨hcalm2, _⟩ := (calls_emit s .disconnect).ok _ _ hr2
  rw [hinput1] at hcalm2
  have hcalm : st.input.calmFor (st.disconnectCalls s) = true := by
    unfold AcceptorState.disconnectCalls
    rw [Input.calmFor_add]
    exact Bool.and_eq_true_iff.mpr ⟨hcalm1, hcalm2⟩
  exact performs_removeAllListeners s (h (Or.inr ⟨hcalm, rfl⟩))

theorem performs_handleDisconnect (s : ℕ)
    (h : disconnectActs s (st.input.calmFor (st.disconnectCalls s) = true) ⊆ A) :
    Performs A st (handleDisconnect s) := by
  have hdisconnect : .disconnect s ∈ A := h (Or.inr (Or.inl rfl))
  refine .trans (.single hdisconnect) (path_handleDisconnect s ?_)
  rintro a ((rfl | rfl) | ⟨hcalm, rfl⟩)
  · exact h (Or.inr (Or.inr (Or.inl rfl)))
  · exact h (Or.inl rfl)
  · exact h (Or.inr (Or.inr (Or.inr ⟨hcalm, rfl⟩)))

/-- `handleDisconnect` changes no session but its own, whether or not user code throws. -/
theorem sessions_handleDisconnect (s : ℕ) : ((handleDisconnect s).after st).sessions =
    ((Act.disconnect s).apply st).sessions :=
  (path_handleDisconnect s fun _ => id).eq_of (f := AcceptorState.sessions) fun st1 a ha => by
    rcases ha with (rfl | rfl) | ⟨_, rfl⟩ <;> exact sessions_apply rfl st1

theorem timer_handleDisconnect (s : ℕ) :
    (((handleDisconnect s).after st).sessions s).heartbeatTimer = false := by
  rw [sessions_handleDisconnect]
  simp [Act.apply, AcceptorState.withSessionAs, Session.clearTimers]

theorem tearDownActs_mono {s : ℕ} {p q : Prop} (h : p → q) :
    tearDownActs s p ⊆ tearDownActs s q := by
  rintro a ((ha | ha | ha | ⟨hp, ha⟩) | ⟨hp, ha⟩)
  · exact Or.inl (Or.inl ha)
  · exact Or.inl (Or.inr (Or.inl ha))
  · exact Or.inl (Or.inr (Or.inr (Or.inl ha)))
  · exact Or.inl (Or.inr (Or.inr (Or.inr ⟨h hp, ha⟩)))
  · exact Or.inr ⟨h hp, ha⟩

/-- `handleDisconnect` and what follows it, after `n` calls of user code. -/
theorem performs_tearDown {w : AcceptorM Unit} {st0 : AcceptorState} (s n : ℕ)
    (hcalm : st0.input.calmFor n = true) (hinput : st.input = st0.input.afterCalls n)
    (hsetup : SameSetup st0 st)
    (h : tearDownActs s (st0.input.calmFor (n + st0.disconnectCalls s) = true) ⊆ A)
    (hw : ∀ st', st0.input.calmFor (n + st0.disconnectCalls s) = true →
      st'.input = st0.input.afterCalls (n + st0.disconnectCalls s) → SameSetup st0 st' →
      (st'.sessions s).heartbeatTimer = false → Performs A st' w) :
    Performs A st (handleDisconnect s >>= fun _ => w) := by
  have hsum : st.input.calmFor (st.disconnectCalls s) = true →
      st0.input.calmFor (n + st0.disconnectCalls s) = true := by
    intro hd
    rw [hinput, hsetup.disconnectCalls] at hd
    rw [Input.calmFor_add, hcalm, hd, Bool.true_and]
  refine Does.bind_of_ok (performs_handleDisconnect s fun a ha =>
    h (tearDownActs_mono hsum (Or.inl ha)))
    fun _ st' hr _ => ?_
  have hcalls : Calls (st.disconnectCalls s) st (handleDisconnect s) := calls_handleDisconnect s
  obtain ⟨hd, hinput'⟩ := hcalls.ok _ _ hr
  have htimer : (((handleDisconnect s).after st).sessions s).heartbeatTimer = false :=
    timer_handleDisconnect s
  rw [after_of_result hr] at htimer
  refine hw st' (hsum hd) ?_ (hsetup.trans (hcalls.setup_of_result hr)) htimer
  rw [hinput', hinput, Input.afterCalls_afterCalls, hsetup.disconnectCalls]

theorem performs_afterLogoutSent (s : ℕ) (h : afterLogoutActs st s ⊆ A) :
    Performs A st (afterLogoutSent s) := by
  have hrest : ∀ a, a ∈ tearDownActs s (st.input.calmFor (1 + st.disconnectCalls s) = true) →
      a ∈ A := fun a ha => h (Or.inr ha)
  refine Does.bind_of_ok (performs_emit s .loggingOut fun a ha => h (Or.inl (Or.inl ha)))
    fun _ st1 hr1 _ => ?_
  have hcalls : Calls 1 st (emit s .loggingOut) := calls_emit s .loggingOut
  obtain ⟨hcalm, hinput⟩ := hcalls.ok _ _ hr1
  refine performs_tearDown s 1 hcalm hinput (hcalls.setup_of_result hr1) hrest
    fun st2 hdone _ _ htimer => ?_
  refine Does.bind_of_ok (performs_endWritable s (hrest _ (Or.inr ⟨hdone, Or.inl rfl⟩)))
    fun _ st3 hr3 _ => ?_
  have hsessions : ((endWritable s).after st2).sessions = st2.sessions :=
    sessions_endWritable s
  rw [after_of_result hr3] at hsessions
  refine Does.bind (performs_removeId s ?_ (hrest _ (Or.inr ⟨hdone, Or.inr rfl⟩))) fun _ _ =>
    performs_emit s .loggedOut fun a ha => h (Or.inl (Or.inr ha))
  rwa [hsessions]

theorem calls_afterLogoutSent (s : ℕ) :
    Calls (2 + st.disconnectCalls s) st (afterLogoutSent s) := by
  have hcalls : Calls 1 st (emit s .loggingOut) := calls_emit s .loggingOut
  refine (hcalls.bind fun _ st1 hr1 => (((calls_handleDisconnect s).congr ?_).bind fun _ st2 _ =>
    (calls_endWritable s).bind fun _ _ _ => (calls_removeId s).bind fun _ _ _ =>
      calls_emit s .loggedOut)).congr (n := 2 + st.disconnectCalls s) (m := 1 +
        (st.disconnectCalls s + (0 + (0 + 1)))) (by omega)
  exact (hcalls.setup_of_result hr1).disconnectCalls s

theorem performs_handleLogout (s : ℕ) (h : handleLogoutActs st s ⊆ A) :
    Performs A st (handleLogout s) := by
  have hrest : ∀ a, a ∈ tearDownActs s (st.input.calmFor (st.logoutCalls s) = true) → a ∈ A :=
    fun a ha => h (Or.inr ha)
  refine Does.bind_of_ok (performs_runHandlers s .logout fun a ha =>
    h (Or.inl (Or.inl (Or.inl ha)))) fun _ st1 hr1 _ => ?_
  have hcalls1 : Calls ((st.sessions s).handlers.simple .logout).length st
      (runHandlers s .logout) := calls_runHandlers s .logout
  obtain ⟨hcalm1, hinput1⟩ := hcalls1.ok _ _ hr1
  have hupdate : Calls 0 st1 (updateSession s fun x => { x with state := .disconnected }) :=
    calls_updateSession (fun _ => rfl) (fun _ => rfl) fun _ => rfl
  refine Does.bind_of_ok (performs_setState (h (Or.inl (Or.inr rfl)))) fun _ st2 hr2 _ => ?_
  obtain ⟨_, hinput2⟩ := hupdate.ok _ _ hr2
  refine Does.bind_of_ok (performs_emit s .loggedOut fun a ha => h (Or.inl (Or.inl (Or.inr ha))))
    fun _ st3 hr3 _ => ?_
  have hcalls3 : Calls 1 st2 (emit s .loggedOut) := calls_emit s .loggedOut
  obtain ⟨hcalm3, hinput3⟩ := hcalls3.ok _ _ hr3
  rw [Input.afterCalls_zero, hinput1] at hinput2
  rw [hinput2] at hcalm3 hinput3
  rw [Input.afterCalls_afterCalls] at hinput3
  have hcalm : st.input.calmFor (((st.sessions s).handlers.simple .logout).length + 1) = true := by
    rw [Input.calmFor_add, hcalm1, hcalm3, Bool.true_and]
  have hsetup := ((hcalls1.setup_of_result hr1).trans (hupdate.setup_of_result hr2)).trans
    (hcalls3.setup_of_result hr3)
  have hsum : ((st.sessions s).handlers.simple .logout).length + 1 + st.disconnectCalls s =
      st.logoutCalls s := Nat.add_assoc ..
  refine performs_tearDown s _ hcalm hinput3 hsetup (hsum ▸ hrest)
    fun st4 hdone _ _ htimer => ?_
  rw [hsum] at hdone
  have hend : .endSocket s ∈ A := hrest _ (Or.inr ⟨hdone, Or.inl rfl⟩)
  exact Does.bind_of_path (result_endOwnSocket s) (.single hend)
    (performs_removeId s htimer (hrest _ (Or.inr ⟨hdone, Or.inr rfl⟩)))

/-! ## Logouts and registrations -/

/-- A `closeAll` hears of the end of a logout. -/
theorem after_settleLogout (k : ℕ) (result : Except JSError Unit) :
    (settleLogout (.closeAll k) result).after st = st.settled k result := by
  unfold settleLogout AcceptorState.settled
  rw [after_bind_of_ok (result_get st)]
  cases st.closeAlls[k]? with
  | none => rfl
  | some c =>
    dsimp only
    rw [after_bind_of_ok (result_modify _ st)]
    split
    · rfl
    · rw [List.append_nil]
      rfl

theorem performs_settleLogout {caller : LogoutCaller} {result : Except JSError Unit}
    (h : settleLogoutActs caller result ⊆ A) : Performs A st (settleLogout caller result) := by
  cases caller with
  | user => exact Does.pure ()
  | registration s dropped => exact performs_suspend (h rfl)
  | closeAll k =>
    have hpath : Path Act.apply A st ((Act.settleCloseAll k result).apply st) :=
      .single (h rfl)
    unfold Performs Does
    rwa [after_settleLogout]

theorem performs_logout (s : ℕ) (reason : Value) (caller : LogoutCaller)
    (h : logoutActs st s caller ⊆ A) : Performs A st (logout s reason caller) := by
  apply Does.get_bind
  apply Does.ite
  · intro hstate
    exact performs_settleLogout fun a ha => h (Or.inl ⟨hstate, ha⟩)
  · intro hstate
    have hmem : ∀ a, (a = .beginLogout s ∨ a ∈ sendActs s ∨
        ∃ error, a = .suspend (.logoutSent s caller error)) → a ∈ A :=
      fun a ha => h (Or.inr ⟨hstate, ha⟩)
    refine Does.bind (Does.modify (.beginLogout s) (hmem _ (Or.inl rfl)) ?_) fun _ _ =>
      Does.bind (performs_startSend s _ fun a ha => hmem a (Or.inr (Or.inl ha))) fun error _ =>
        performs_suspend (hmem _ (Or.inr (Or.inr ⟨error, rfl⟩)))
    simp only [Act.apply, AcceptorState.withSessionAs, if_neg hstate]

theorem performs_finishRegistration (s : ℕ) (dropped : Bool) (h : finishActs st s ⊆ A) :
    Performs A st (finishRegistration s dropped) := by
  apply Does.get_bind
  apply Does.ite
  · intro _
    apply Does.ite
    · intro _
      exact performs_observe (h (Or.inr ⟨_, rfl⟩))
    · intro _
      exact Does.pure ()
  · intro hlimit
    exact Does.modify _ (h (Or.inl ⟨Bool.eq_false_iff.mpr hlimit, rfl⟩)) rfl

theorem performs_registerSession (s : ℕ) (dropped : Bool) (h : registerActs st s dropped ⊆ A) :
    Performs A st (registerSession s dropped) := by
  apply Does.get_bind
  split
  · next hfree => exact performs_finishRegistration s dropped fun a ha => h (Or.inl ⟨hfree, ha⟩)
  · next old hold =>
    exact performs_logout old _ _ fun a ha => h (Or.inr ⟨old, hold, ha⟩)

/-- A logout neither ends a session at once nor revives it. -/
theorem disconnected_apply_iff {a : Act} {x y : ℕ} {caller : LogoutCaller}
    (ha : a ∈ logoutActs st x caller) (st' : AcceptorState) :
    ((a.apply st').sessions y).state = .disconnected ↔ (st'.sessions y).state = .disconnected := by
  have hsettle : ∀ result, a ∈ settleLogoutActs caller result →
      (a.apply st').sessions = st'.sessions := by
    intro result ha
    cases caller with
    | user => exact ha.elim
    | registration s dropped =>
      obtain rfl := Set.mem_singleton_iff.mp ha
      rfl
    | closeAll k =>
      obtain rfl := Set.mem_singleton_iff.mp ha
      have hsettled := congrArg AcceptorState.sessions (st'.settled_eq k result)
      exact hsettled
  rcases ha with ⟨_, ha⟩ | ⟨_, rfl | (rfl | ⟨m, raw, rfl⟩) | ⟨error, rfl⟩⟩
  · rw [hsettle _ ha]
  · by_cases hy : y = x
    · subst y
      by_cases hstate : (st'.sessions x).state = .disconnected
      · simp [Act.apply, AcceptorState.withSessionAs, hstate]
      · simp [Act.apply, AcceptorState.withSessionAs, hstate]
    · simp [Act.apply, AcceptorState.withSessionAs, hy]
  · by_cases hy : y = x
    · subst y
      simp [Act.apply, AcceptorState.withSessionAs]
    · simp [Act.apply, AcceptorState.withSessionAs, hy]
  · rfl
  · rfl

theorem performs_closeAll (stopping : Bool) (h : closeAllActs st stopping ⊆ A) :
    Performs A st (closeAll stopping) := by
  suffices hself : Performs (closeAllActs st stopping) st (closeAll stopping) from hself.mono h
  have hpath : Path Act.apply (closeAllActs st stopping) st
      ((Act.callCloseAll stopping).apply st) := .single (Or.inl rfl)
  have hkept : ∀ st', Path Act.apply (closeAllActs st stopping) st st' →
      ∀ y, (st'.sessions y).state = .disconnected ↔ (st.sessions y).state = .disconnected := by
    intro st' hst' y
    refine hst'.keeps (P := fun st' => (st'.sessions y).state = .disconnected ↔
      (st.sessions y).state = .disconnected) ?_ Iff.rfl
    rintro st'' a _ (rfl | ⟨s, _, ha⟩) hiff
    · exact hiff
    · exact (disconnected_apply_iff ha st'').trans hiff
  unfold Performs Does closeAll
  rw [after_bind_of_ok (result_get st), after_bind_of_ok (result_modify _ st)]
  split
  · next hnil =>
    simp only [Act.apply, AcceptorState.withCloseAll, if_pos hnil] at hpath
    exact hpath
  · next hnil =>
    simp only [Act.apply, AcceptorState.withCloseAll, if_neg hnil, List.append_nil] at hpath
    refine hpath.trans (Does.forEach fun s hs st' hst' => performs_logout s _ _ ?_)
    rintro a (⟨hstate, ha⟩ | ⟨hstate, ha⟩)
    · exact Or.inr ⟨s, hs, Or.inl ⟨(hkept _ (hpath.trans hst') s).mp hstate, ha⟩⟩
    · exact Or.inr ⟨s, hs, Or.inr ⟨fun h => hstate ((hkept _ (hpath.trans hst') s).mpr h), ha⟩⟩

/-! ## Handling messages -/

theorem performs_settleMessage {origin : Origin} (result : Except JSError Unit)
    (h : settleMessageActs origin ⊆ A) : Performs A st (settleMessage origin result) := by
  cases origin with
  | user => exact Does.pure ()
  | chunk c rest logon =>
    refine Does.bind ?_ fun _ _ => performs_suspend (h (Or.inr rfl))
    cases result with
    | ok _ => exact Does.pure ()
    | error e =>
      apply Does.ite
      · intro _
        exact performs_destroy (h (Or.inl rfl))
      · intro _
        exact Does.pure ()

theorem performs_runMessageHandlers {origin : Origin} {s : ℕ} {m : Message} (next : ℕ)
    (h : runMessageHandlersActs origin s m ⊆ A) :
    Performs A st (runMessageHandlers origin s m next) := by
  have hsettle : settleMessageActs origin ⊆ A := fun a ha => h (Or.inl ha)
  apply Does.get_bind
  split
  · exact performs_settleMessage _ hsettle
  · next i _ =>
    refine Does.bind (performs_observe (h (Or.inr (Or.inr (Or.inl ⟨i, rfl⟩))))) fun _ _ =>
      Does.bind (performs_callUser (h (Or.inr (Or.inl rfl)))).attempt fun result _ => ?_
    cases result with
    | ok _ => exact performs_suspend (h (Or.inr (Or.inr (Or.inr ⟨_, rfl⟩))))
    | error e => exact performs_settleMessage _ hsettle

theorem performs_startLogon {origin : Origin} {s : ℕ} {m : Message}
    (h : startLogonActs origin s m ⊆ A) : Performs A st (startLogon origin s m) := by
  refine Does.bind (performs_setState (h (Or.inr (Or.inl rfl)))) fun _ _ =>
    Does.bind (Does.get_bind (Does.bind (performs_startSend s _ fun _ ha => h (Or.inl ha))
      fun error _ => ?_)) fun error _ =>
        performs_suspend (h (Or.inr (Or.inr (Or.inr ⟨error, rfl⟩))))
  cases error with
  | none =>
    exact Does.bind (performs_observe (h (Or.inr (Or.inr (Or.inl rfl))))) fun _ _ => Does.pure _
  | some e => exact Does.pure _

theorem performs_afterLogonResponse {s : ℕ} (error : Option JSError)
    (h : afterLogonResponseActs s ⊆ A) : Performs A st (afterLogonResponse s error) := by
  cases error with
  | some e => exact Does.throw e
  | none =>
    exact Does.bind (performs_runHandlers s _ fun a ha => h (Or.inl (Or.inl ha))) fun _ _ =>
      Does.bind (performs_runHandlers s _ fun a ha => h (Or.inl (Or.inr ha))) fun _ _ =>
        performs_emit s _ fun a ha => h (Or.inr ha)

theorem performs_startTestRequestReply {origin : Origin} {s : ℕ} {m : Message}
    (h : startTestRequestReplyActs origin s m ⊆ A) :
    Performs A st (startTestRequestReply origin s m) :=
  Does.bind (performs_startSend s _ fun _ ha => h (Or.inl ha)) fun error _ =>
    performs_suspend (h (Or.inr ⟨error, rfl⟩))

theorem performs_handleMessage {origin : Origin} {s : ℕ} {m : Message}
    (h : handleMessageActs st origin s m ⊆ A) : Performs A st (handleMessage origin s m) := by
  unfold handleMessageActs at h
  apply Does.ite
  · intro hlogon
    rw [if_pos hlogon] at h
    exact performs_startLogon h
  · intro hlogon
    rw [if_neg hlogon] at h
    apply Does.ite
    · intro hlogout
      rw [if_pos hlogout] at h
      refine Does.bind (performs_handleLogout s fun a ha => h (Or.inl (Or.inl ha))).attempt
        fun result _ => ?_
      cases result with
      | ok _ => exact performs_suspend (h (Or.inr rfl))
      | error e => exact performs_settleMessage _ fun a ha => h (Or.inl (Or.inr ha))
    · intro hlogout
      rw [if_neg hlogout] at h
      apply Does.ite
      · intro htest
        rw [if_pos htest] at h
        exact performs_startTestRequestReply h
      · intro htest
        rw [if_neg htest] at h
        exact performs_runMessageHandlers 0 h

/-! ## Routing -/

theorem performs_socketError (c : ℕ) (e : JSError) (h : eventActs st (.socketError c e) ⊆ A) :
    Performs A st (socketError c e) := by
  refine Does.bind (Does.get_bind (Does.ite ?_ ?_)) fun _ _ =>
    performs_destroy (h (Or.inr (Or.inr rfl)))
  · intro hlistener
    exact performs_observe (h (Or.inl ⟨hlistener, rfl⟩))
  · intro hlistener
    exact performs_observe (h (Or.inr (Or.inl ⟨Bool.eq_false_iff.mpr hlistener, rfl⟩)))

theorem performs_failEndedWrite {c : ℕ} (h : failWriteActs c ⊆ A) :
    Performs A st (failEndedWrite c) := by
  refine Does.get_bind (Does.ite (fun _ => ?_) fun _ => Does.pure ())
  refine performs_socketError c _ fun a ha => h ?_
  rcases ha with ⟨_, rfl⟩ | ⟨_, rfl⟩ | rfl
  · exact Or.inr (Or.inl ⟨_, rfl⟩)
  · exact Or.inr (Or.inr ⟨_, rfl⟩)
  · exact Or.inl rfl

theorem performs_sendLogoutAndClose {c : ℕ} {rest : List Message} (m : Message)
    (reason : JSString) (h : refuseActs c rest ⊆ A) :
    Performs A st (sendLogoutAndClose c m rest reason) := by
  apply Does.get_bind
  split
  · exact Does.throw _
  · refine Does.bind (Does.bind (performs_observe (h (Or.inr (Or.inl ⟨_, rfl⟩)))) fun _ _ =>
      performs_failEndedWrite fun _ ha => h (Or.inl ha)) fun _ _ => ?_
    exact performs_suspend (h (Or.inr (Or.inr (Or.inl rfl))))

theorem performs_refuseMessage {c : ℕ} {rest : List Message} (m : Message) (reason : JSString)
    (h : refuseActs c rest ⊆ A) : Performs A st (refuseMessage c m rest reason) := by
  refine Does.bind (performs_sendLogoutAndClose m reason h).attempt fun result _ => ?_
  cases result with
  | ok _ => exact Does.pure ()
  | error e => exact performs_suspend (h (Or.inr (Or.inr (Or.inr rfl))))

theorem performs_refuseThrownLogon {c : ℕ} {rest : List Message} (m : Message)
    (reason : JSString) (h : refuseActs c rest ⊆ A) :
    Performs A st (refuseThrownLogon c m rest reason) := by
  refine Does.bind (performs_sendLogoutAndClose m reason h).attempt fun result _ => ?_
  cases result with
  | ok _ => exact Does.pure ()
  | error e =>
    exact Does.bind (performs_destroy (h (Or.inl (Or.inl rfl)))) fun _ _ =>
      performs_suspend (h (Or.inr (Or.inr (Or.inr rfl))))

theorem performs_refuseLogon {c : ℕ} {rest : List Message} (m : Message) (reason : JSString)
    (h : refuseActs c rest ⊆ A) : Performs A st (refuseLogon c m rest reason) := by
  refine Does.bind (performs_sendLogoutAndClose m reason h).attempt fun result _ => ?_
  cases result with
  | ok _ => exact Does.pure ()
  | error e => exact performs_refuseThrownLogon m e h

theorem performs_validateLogon {c : ℕ} {m : Message} {rest : List Message}
    (h : validateLogonActs st c m rest ⊆ A) : Performs A st (validateLogon c m rest) := by
  apply Does.get_bind
  split
  · exact performs_suspend (h (Or.inl ⟨_, rfl, by simp⟩))
  · next hfields =>
    apply Does.ite
    · intro _
      exact performs_suspend (h (Or.inl ⟨_, rfl, by simp⟩))
    · intro htarget
      have haccepts : st.config.accepts m := ⟨hfields, not_not.mp htarget⟩
      apply Does.ite
      · intro _
        exact performs_suspend (h (Or.inr ⟨rfl, haccepts⟩))
      · intro hauth
        exact performs_suspend (h (Or.inl ⟨_, rfl, fun _ =>
          ⟨haccepts, Bool.eq_false_iff.mpr hauth⟩⟩))

theorem performs_afterValidateCredentials {c : ℕ} {m : Message} {rest : List Message}
    (h : afterValidateCredentialsActs st c m rest ⊆ A) :
    Performs A st (afterValidateCredentials c m rest) := by
  apply Does.get_bind
  split
  · exact performs_suspend (h (Or.inl ⟨_, rfl, by simp⟩))
  · next hsettled =>
    apply Does.ite
    · intro hcredentials
      exact performs_suspend (h (Or.inr ⟨rfl, hsettled, hcredentials⟩))
    · intro _
      exact performs_suspend (h (Or.inl ⟨_, rfl, by simp⟩))

theorem performs_afterGetAllowedSenderCompIds {c : ℕ} {m : Message} {rest : List Message}
    (h : afterGetAllowedSenderCompIdsActs st c m rest ⊆ A) :
    Performs A st (afterGetAllowedSenderCompIds c m rest) := by
  apply Does.get_bind
  split
  · exact performs_suspend (h ⟨_, rfl, by simp⟩)
  · next hsettled =>
    apply Does.ite
    · intro hallowed
      exact performs_suspend (h ⟨_, rfl, fun _ => ⟨hsettled, hallowed⟩⟩)
    · intro _
      exact performs_suspend (h ⟨_, rfl, by simp⟩)

/-- The session is created before it is registered. -/
theorem result_createNewSession (c : ℕ) (m : Message) : (createNewSession c m).result st =
    (registerSession st.nextSession true >>= fun _ => pure st.nextSession).result
      ((Act.create (buildSessionConfig st.config m) c).apply st) := by
  unfold createNewSession
  rw [result_bind, result_get]
  dsimp only
  rw [result_bind, result_newSession]

/-- The new session has the next number. -/
theorem createNewSession_ok {c s : ℕ} {m : Message} {st' : AcceptorState}
    (h : (createNewSession c m).result st = (.ok s, st')) : s = st.nextSession := by
  rw [result_createNewSession, result_bind] at h
  rcases hr : (registerSession st.nextSession true).result
    ((Act.create (buildSessionConfig st.config m) c).apply st) with ⟨e | _, st''⟩
  · rw [hr] at h
    cases (Prod.mk.inj h).1
  · rw [hr] at h
    exact (Except.ok.inj (Prod.mk.inj h).1).symm

theorem performs_afterValidated_valid {c : ℕ} {m : Message} {rest : List Message}
    (h : createActs st c m rest ⊆ A) : Performs A st (afterValidated c m rest .valid) := by
  have hcreate : .create (buildSessionConfig st.config m) c ∈ A := h (Or.inl (Or.inl rfl))
  have hsuspend : .suspend (.created c st.nextSession m rest) ∈ A := h (Or.inl (Or.inr rfl))
  have hnew : Performs A st (createNewSession c m) := by
    apply Does.get_bind
    refine Does.bind_of_path (result_newSession _ c) (.single hcreate) ?_
    exact Does.bind (performs_registerSession _ true fun a ha => h (Or.inr ha)) fun _ _ => Does.pure _
  refine Does.bind_of_ok hnew fun s st' hr _ => ?_
  rw [createNewSession_ok hr]
  exact performs_suspend hsuspend

/-- After the session for a valid Logon has been created, the rest of the step registers it. -/
theorem path_afterValidated {c : ℕ} {m : Message} {rest : List Message}
    (h : {.suspend (.created c st.nextSession m rest)} ∪ registerActs
      ((Act.create (buildSessionConfig st.config m) c).apply st) st.nextSession true ⊆ A) :
    Path Act.apply A ((Act.create (buildSessionConfig st.config m) c).apply st)
      ((afterValidated c m rest .valid).after st) := by
  unfold afterValidated
  rw [after_bind_congr (result_createNewSession c m)]
  refine Does.bind_of_ok (Does.bind (performs_registerSession _ true fun a ha => h (Or.inr ha))
    fun _ _ => Does.pure _) fun s st' hr _ => ?_
  rw [← result_createNewSession] at hr
  rw [createNewSession_ok hr]
  exact performs_suspend (h (Or.inl rfl))

theorem performs_handleNonLogonMessage {c : ℕ} {m : Message} {rest : List Message}
    (hrefuse : refuseActs c rest ⊆ A)
    (hroute : ∀ s, st.registry.get? (buildSessionId m) = some s →
      .observe (.dispatched c s m) ∈ A ∧ handleMessageActs st (.chunk c rest false) s m ⊆ A) :
    Performs A st (handleNonLogonMessage c m rest) := by
  apply Does.get_bind
  split
  · exact performs_refuseMessage m _ hrefuse
  · next s hs =>
    obtain ⟨hdispatched, hhandle⟩ := hroute s hs
    refine Does.bind_of_path (result_observe _) (.single hdispatched) ?_
    exact performs_handleMessage hhandle

theorem performs_processMessages {c : ℕ} {ms : List Message} (h : processActs st c ms ⊆ A) :
    Performs A st (processMessages c ms) := by
  cases ms with
  | nil => exact Does.pure ()
  | cons m rest =>
    rw [processMessages]
    split
    · next htype =>
      split
      · next e _ =>
        exact Does.bind (performs_observe (h (Or.inr (Or.inl ⟨e, rfl⟩)))) fun _ _ =>
          performs_destroy (h (Or.inr (Or.inr (Or.inl rfl))))
      · next raw hraw =>
        refine Does.bind_of_path (result_observe _)
          (.single (h (Or.inr (Or.inr (Or.inr (Or.inl rfl)))))) ?_
        have hrest : ∀ a, (m.getField Fields.msgType = MsgType.logon ∧
            a ∈ validateLogonActs st c m rest ∨ routable m = true ∧
            (a ∈ refuseActs c rest ∨ ∃ s, st.registry.get? (buildSessionId m) = some s ∧
              (a = .observe (.dispatched c s m) ∨
                a ∈ handleMessageActs st (.chunk c rest false) s m))) → a ∈ A :=
          fun a ha => h (Or.inr (Or.inr (Or.inr (Or.inr ha))))
        apply Does.ite
        · intro hlogon
          exact performs_validateLogon fun a ha => hrest a (Or.inl ⟨hlogon, ha⟩)
        · intro hlogon
          have hroutable : routable m = true := by
            simp [routable, htype, hraw, hlogon, Except.isOk, Except.toBool]
          refine performs_handleNonLogonMessage
            (fun a ha => hrest a (Or.inr ⟨hroutable, Or.inl ha⟩)) fun s hs => ⟨?_, fun a ha => ?_⟩
          · exact hrest _ (Or.inr ⟨hroutable, Or.inr ⟨s, hs, Or.inl rfl⟩⟩)
          · exact hrest a (Or.inr ⟨hroutable, Or.inr ⟨s, hs, Or.inr ha⟩⟩)
    · next htype =>
      exact performs_suspend (h (Or.inl ⟨rfl, Bool.eq_false_iff.mpr htype⟩))

/-! ## Close events -/

/-- The end of the sessions of a list that are on a socket, after `n` calls of user code. -/
theorem performs_cleanupSessions {st0 : AcceptorState} {c : ℕ} (sessions : List ℕ) (n : ℕ)
    (hcalm : st0.input.calmFor n = true) (hinput : st.input = st0.input.afterCalls n)
    (hsetup : SameSetup st0 st) (h : cleanupActs st0 c n sessions ⊆ A) :
    Performs A st (cleanupSessions c sessions) := by
  induction sessions generalizing st n with
  | nil => exact Does.pure ()
  | cons s sessions ih =>
    apply Does.get_bind
    rw [(hsetup s).2.1]
    split
    · next hc =>
      have hown : ∀ {p : Prop}, (p → s ∈ st0.cleanedUp c n (s :: sessions)) →
          tearDownActs s p ⊆ A := fun hp a ha =>
        h ⟨s, List.mem_cons_self, hc, tearDownActs_mono hp ha⟩
      have hhead : st0.input.calmFor (n + st0.disconnectCalls s) = true →
          st0.cleanedUp c n (s :: sessions) =
            s :: st0.cleanedUp c (n + st0.disconnectCalls s) sessions := by
        intro hdone
        rw [AcceptorState.cleanedUp, if_pos hc, if_pos hdone]
      refine performs_tearDown s n hcalm hinput hsetup (hown fun hdone => ?_)
        fun st1 hdone hinput1 hsetup1 htimer => ?_
      · rw [hhead hdone]
        exact List.mem_cons_self
      have hremove : .removeId s ∈ A := hown (p := True)
        (fun _ => by rw [hhead hdone]; exact List.mem_cons_self)
        (Or.inr ⟨trivial, Or.inr rfl⟩)
      refine Does.bind_of_ok (performs_removeId s htimer hremove) fun _ st2 hr _ => ?_
      have hcalls : Calls 0 st1 (removeId s) := calls_removeId s
      refine ih _ hdone ?_ (hsetup1.trans (hcalls.setup_of_result hr)) ?_
      · rw [(hcalls.ok _ _ hr).2, hinput1, Input.afterCalls_zero]
      · rintro a ⟨x, hx, hxc, ha⟩
        refine h ⟨x, List.mem_cons_of_mem s hx, hxc, tearDownActs_mono (fun hmem => ?_) ha⟩
        rw [hhead hdone]
        exact List.mem_cons_of_mem s hmem
    · next hc =>
      refine ih n hcalm hinput hsetup ?_
      rintro a ⟨x, hx, hxc, ha⟩
      refine h ⟨x, List.mem_cons_of_mem s hx, hxc, tearDownActs_mono (fun hmem => ?_) ha⟩
      rwa [AcceptorState.cleanedUp, if_neg hc]

theorem performs_cleanupSocketSessions {st0 : AcceptorState} {c : ℕ}
    (hinput : st.input = st0.input) (hsetup : SameSetup st0 st)
    (h : cleanupActs st0 c 0 st.registry.values ⊆ A) : Performs A st (cleanupSocketSessions c) := by
  apply Does.get_bind
  refine Does.bind (Does.attempt ?_) fun _ _ => Does.pure _
  exact performs_cleanupSessions _ 0 rfl hinput hsetup h

theorem performs_callCloseListener {st0 : AcceptorState} {c : ℕ} {listener : CloseListener}
    (hinput : st.input = st0.input) (hsetup : SameSetup st0 st)
    (hregistry : st.registry = st0.registry) (h : listenerActs st0 c listener ⊆ A) :
    Performs A st (callCloseListener c listener) := by
  cases listener with
  | acceptor =>
    have hforget : .forget c ∈ A := h (Or.inl rfl)
    refine Does.bind_of_path (result_modify _ st)
      (show Path Act.apply A st ((Act.forget c).apply st) from .single hforget) ?_
    have hcleanup : cleanupActs st0 c 0 st.registry.values ⊆ A := by
      rw [hregistry]
      exact fun a ha => h (Or.inr ha)
    exact performs_cleanupSocketSessions hinput hsetup hcleanup
  | session s =>
    refine performs_tearDown s 0 rfl hinput hsetup ?_ fun _ hdone _ _ htimer => ?_
    · rwa [Nat.zero_add]
    · rw [Nat.zero_add] at hdone
      exact performs_removeId s htimer (h (Or.inr ⟨hdone, Or.inr rfl⟩))

theorem performs_callNextListener (h : nextListenerActs st ⊆ A) :
    Performs A st callNextListener := by
  unfold nextListenerActs at h
  apply Does.get_bind
  split
  · exact Does.pure ()
  · next c hclosing =>
    rw [hclosing] at h
    exact Does.modify (.setClosing none) (h rfl) rfl
  · next c listener listeners hclosing =>
    rw [hclosing] at h
    refine Does.bind_of_path (result_modify _ st) (show Path Act.apply A st
      ((Act.setClosing (some (c, listeners))).apply st) from
        .single (h (Or.inr (Or.inl rfl)))) ?_
    have hsub : listenerActs st c listener ⊆ A := fun a ha => h (Or.inl ha)
    have hlistener : Performs A ((Act.setClosing (some (c, listeners))).apply st)
        (callCloseListener c listener) := by
      refine performs_callCloseListener ?_ (SameSetup.refl st) ?_ hsub <;> rfl
    refine Does.bind hlistener.attempt fun result _ => ?_
    cases result with
    | ok _ => exact Does.pure ()
    | error e =>
      exact Does.bind (performs_observe (h (Or.inr (Or.inr (Or.inr ⟨e, rfl⟩))))) fun _ _ =>
        Does.modify (.setClosing none) (h (Or.inr (Or.inr (Or.inl rfl)))) rfl

/-! ## Suspended tasks -/

theorem performs_closeAllSockets (h : resumeActs st .closeAllSockets ⊆ A) :
    Performs A st closeAllSockets := by
  apply Does.get_bind
  refine Does.bind (Does.forEach fun c hc _ _ => performs_destroy (h (Or.inr ⟨c, hc, rfl⟩)))
    fun _ _ => Does.modify .shut (h (Or.inl rfl)) rfl

theorem performs_setupSessionHandlers (s : ℕ)
    (h : ∀ metadata ∈ st.config.metadata, .addHandlers s metadata ∈ A) :
    Performs A st (setupSessionHandlers s) := by
  apply Does.get_bind
  exact Does.forEach fun metadata hm _ _ => performs_addHandlers s metadata (h metadata hm)

theorem performs_resume {frame : Frame} (h : resumeActs st frame ⊆ A) :
    Performs A st (resume frame) := by
  cases frame with
  | nextMessage c rest => exact performs_processMessages h
  | validateCredentials c m rest => exact performs_afterValidateCredentials h
  | getAllowedSenderCompIds c m rest => exact performs_afterGetAllowedSenderCompIds h
  | validated c m rest verdict =>
    cases verdict with
    | valid => exact performs_afterValidated_valid h
    | invalid reason => exact performs_refuseLogon m _ h
    | thrown e => exact performs_refuseThrownLogon m e h
  | closeDelay c rest =>
    exact Does.bind (performs_destroy (h (Or.inl rfl))) fun _ _ => performs_suspend (h (Or.inr rfl))
  | created c s m rest =>
    exact Does.bind (performs_setupSessionHandlers s fun metadata hm =>
      h (Or.inl ⟨metadata, hm, rfl⟩)) fun _ _ => performs_suspend (h (Or.inr rfl))
  | handlersSet c s m rest =>
    exact Does.bind_of_path (result_modify _ st) (show Path Act.apply A st
      ((Act.listen c s).apply st) from .single (h (Or.inl rfl)))
        (performs_handleMessage fun a ha => h (Or.inr ha))
  | logonResponse origin s m error =>
    have hsettle : settleMessageActs origin ⊆ A := fun a ha => h (Or.inl (Or.inr ha))
    refine Does.bind (performs_sendError error) fun error _ =>
      Does.bind (performs_afterLogonResponse error fun a ha => h (Or.inl (Or.inl ha))).attempt
        fun result _ => ?_
    cases result with
    | ok _ => exact performs_suspend (h (Or.inr (Or.inr rfl)))
    | error e =>
      exact Does.bind (performs_setState (h (Or.inr (Or.inl rfl)))) fun _ _ =>
        performs_settleMessage _ hsettle
  | testRequestReply origin s m error =>
    refine Does.bind (performs_sendError error) fun error _ => ?_
    cases error with
    | none => exact performs_suspend (h (Or.inr rfl))
    | some e => exact performs_settleMessage _ fun a ha => h (Or.inl ha)
  | messageHandlers origin s m => exact performs_runMessageHandlers 0 h
  | handlerPending origin s m next =>
    apply Does.get_bind
    split
    · exact performs_runMessageHandlers next h
    · exact performs_settleMessage _ fun a ha => h (Or.inl ha)
  | logoutSent s caller error =>
    refine Does.bind_of_ok (performs_afterLogoutSent s fun a ha => h (Or.inl ha)).attempt
      fun result st' hr _ => performs_settleLogout fun a ha => h (Or.inr ⟨result, ha, ?_⟩)
    rintro e rfl
    rw [result_attempt] at hr
    rcases hresult : (afterLogoutSent s).result st with ⟨e' | _, st''⟩
    · exact (calls_afterLogoutSent s).error e' st'' hresult
    · rw [hresult] at hr
      cases (Prod.mk.inj hr).1
  | registration s dropped => exact performs_finishRegistration s dropped h
  | allClosed k stopping =>
    refine Does.bind (Does.modify .clear (h (Or.inl rfl)) rfl) fun _ _ => ?_
    apply Does.ite
    · intro _
      exact performs_suspend (h (Or.inr rfl))
    · intro _
      exact Does.pure ()
  | closeAllSockets => exact performs_closeAllSockets h

theorem performs_resumeTask (i : ℕ) (h : eventActs st (.resume i) ⊆ A) :
    Performs A st (resumeTask i) := by
  apply Does.get_bind
  split
  · exact Does.pure ()
  · next frame hframe =>
    refine Does.bind_of_path (result_modify _ st) (show Path Act.apply A st
      ((Act.take i).apply st) from .single (h ⟨frame, hframe, Or.inl rfl⟩)) ?_
    refine performs_resume fun a ha => h ⟨frame, hframe, Or.inr ?_⟩
    cases frame <;> exact ha

/-! ## Events -/

theorem performs_handleNewConnection (remoteAddress : JSString) (h : .connect remoteAddress ∈ A) :
    Performs A st (handleNewConnection remoteAddress) := by
  have hpath : Path Act.apply A st ((Act.connect remoteAddress).apply st) := .single h
  exact hpath

theorem after_beginClose (c : ℕ) : (beginClose c).after st = (Act.close c).apply st := by
  unfold beginClose
  rw [after_bind_of_ok (result_updateSocket c _)]
  simp [Exec.after, Act.apply, AcceptorState.withSocketAs]

theorem performs_perform (e : Event) : Performs (eventActs st e) st (perform e) := by
  cases e with
  | connect remoteAddress => exact performs_handleNewConnection _ rfl
  | data c data =>
    apply Does.get_bind
    apply Does.ite
    · intro hlistener
      exact performs_processMessages fun a ha => ⟨hlistener, ha⟩
    · intro _
      exact Does.pure ()
  | socketError c e => exact performs_socketError c e fun _ => id
  | close c =>
    have hpath : Path Act.apply (eventActs st (.close c)) st ((Act.close c).apply st) :=
      .single rfl
    unfold Performs Does perform
    rwa [after_beginClose]
  | nextListener => exact performs_callNextListener fun _ => id
  | resume i => exact performs_resumeTask i fun _ => id
  | heartbeat s => exact performs_heartbeat s fun _ => id
  | reject s e => exact performs_observe rfl
  | send s m => exact Does.bind (performs_startSend s m fun _ => id) fun _ _ => Does.pure _
  | logout s reason => exact performs_logout s reason .user fun _ => id
  | join s roomId => exact Does.modify (.join s roomId) rfl rfl
  | leave s roomId => exact Does.modify (.leave s roomId) rfl rfl
  | handleMessage s m => exact performs_handleMessage fun _ => id
  | registerHandlers s metadata => exact performs_addHandlers s metadata rfl
  | stop => exact performs_closeAll true fun _ => id
  | closeAll => exact performs_closeAll false fun _ => id
  | newSession config c =>
    exact Does.bind (performs_newSession config c rfl) fun _ _ => Does.pure _
  | createSession config c => exact performs_createSession config c (Or.inl rfl) (Or.inr rfl)
  | registerSession s => exact performs_registerSession s false fun _ => id
  | removeSession sessionId => exact performs_removeSession sessionId rfl

/-- The acts of a step. -/
def AcceptorState.stepActs (st : AcceptorState) (e : Step) : Set Act :=
  eventActs { st with input := e.input } e.event

/-- A step performs the acts of its event. -/
theorem step_path {st' : AcceptorState} {e : Step} (h : st.step e = some st') :
    Path Act.apply (st.stepActs e) { st with input := e.input } st' := by
  unfold AcceptorState.step at h
  split at h
  · obtain rfl := Option.some.inj h
    exact performs_perform e.event
  · cases h

end NestQuickfix.Acceptor
