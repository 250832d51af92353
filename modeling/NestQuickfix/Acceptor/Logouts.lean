import NestQuickfix.Acceptor.Tasks

/-!
# Logouts that come to their end

`logout` and `handleLogout` remove the entry of their session last, after its handlers and
listeners have been called. If none of these throws, the id of the session has no entry when
its `logout` resolves, or when the Logout of its peer has been handled.
-/

namespace NestQuickfix.Acceptor

open Lib Lib.Exec

/-- The session whose `logout` resolves in an event, or for which a Logout has been handled
after it: no call of user code throws on the way. -/
def AcceptorState.finishes (st : AcceptorState) (e : Event) : List ℕ :=
  match e with
  | .nextListener => []
  | .resume i =>
    match st.tasks[i]? with
    | some (.logoutSent s _ _) => if st.input.calmFor (2 + st.disconnectCalls s) then [s] else []
    | _ => (st.ends (.resume i)).filter fun s => st.input.calmFor (st.logoutCalls s)
  | e => (st.ends e).filter fun s => st.input.calmFor (st.logoutCalls s)

variable {st st0 st' : AcceptorState} {s : ℕ} {m : Message}

/-- A session is DISCONNECTED, and its timers are cleared. -/
structure Session.Off (x : Session) : Prop where
  state : x.state = .disconnected
  heartbeatTimer : x.heartbeatTimer = false

/-- What a logout that comes to its end leaves of a session of `st0`: its timers are off, its id
has no entry, and its socket is not writable. -/
structure Left (st0 : AcceptorState) (s : ℕ) (st : AcceptorState) : Prop where
  setup : SameSetup st0 st
  off : (st.sessions s).Off
  absent : st.registry.has (st0.sessions s).sessionId = false
  ended : st.writable (st0.sessions s).socket = false

/-! ## The end of a logout -/

theorem SameSetup.sessionId (h : SameSetup st0 st) (s : ℕ) :
    (st.sessions s).sessionId = (st0.sessions s).sessionId := by
  rw [Session.sessionId, (h s).2.2]
  rfl

theorem Left.of_setup (h : Left st s st') (hsetup : SameSetup st0 st) : Left st0 s st' := by
  refine ⟨hsetup.trans h.setup, h.off, ?_, ?_⟩
  · rw [← hsetup.sessionId]
    exact h.absent
  · rw [← (hsetup s).2.1]
    exact h.ended

/-- Code whose calls of user code do not throw. -/
theorem triple_calm {α : Type} {x : AcceptorM α} {n m : ℕ}
    (hx : ∀ st, SameSetup st0 st → Calls n st x) :
    Triple (fun st => SameSetup st0 st ∧ st.input.calmFor (n + m) = true) x
      (fun _ st => SameSetup st0 st ∧ st.input.calmFor m = true) fun _ => False := by
  rintro st ⟨hsetup, hcalm⟩
  have hcalls := hx st hsetup
  rw [Input.calmFor_add, Bool.and_eq_true] at hcalm
  refine ⟨fun a st' hr => ⟨hsetup.trans (hcalls.setup_of_result hr), ?_⟩, fun e st' hr => ?_⟩
  · rw [(hcalls.ok a st' hr).2]
    exact hcalm.2
  · rw [hcalls.error e st' hr] at hcalm
    cases hcalm.1

theorem off_handleDisconnect (s : ℕ) : (((handleDisconnect s).after st).sessions s).Off := by
  refine ⟨?_, timer_handleDisconnect s⟩
  rw [sessions_handleDisconnect]
  simp [Act.apply, AcceptorState.withSessionAs, Session.clearTimers]

theorem triple_handleDisconnect_off (s : ℕ) :
    Triple (fun st => SameSetup st0 st ∧ st.input.calmFor (st0.disconnectCalls s) = true)
      (handleDisconnect s) (fun _ st => SameSetup st0 st ∧ (st.sessions s).Off) fun _ => False := by
  have hoff : Triple (fun _ : AcceptorState => True) (handleDisconnect s)
      (fun _ st => (st.sessions s).Off) fun st => (st.sessions s).Off :=
    .of_after fun _ _ => off_handleDisconnect s
  have hcalls : ∀ st, SameSetup st0 st → Calls (st0.disconnectCalls s) st (handleDisconnect s) :=
    fun st hsetup => (calls_handleDisconnect s).congr (hsetup.disconnectCalls s)
  refine ((triple_calm (m := 0) hcalls).and hoff).conseq ?_ ?_ fun _ => And.left
  · exact fun st hst => ⟨hst, trivial⟩
  · exact fun _ st hst => ⟨hst.1.1, hst.2⟩

/-- Ending the socket of a session leaves the session alone. -/
theorem triple_endOwnSocket_ended (s : ℕ) :
    Triple (fun st => SameSetup st0 st ∧ (st.sessions s).Off) (endOwnSocket s)
      (fun _ st => SameSetup st0 st ∧ (st.sessions s).Off ∧
        st.writable (st0.sessions s).socket = false) fun _ => False := by
  refine .get_bind fun st ⟨hsetup, hoff⟩ => .modify ?_
  rintro _ rfl
  refine ⟨hsetup, hoff, ?_⟩
  rw [(hsetup s).2.1]
  simp [AcceptorState.writable]

theorem triple_endWritable_ended (s : ℕ) :
    Triple (fun st => SameSetup st0 st ∧ (st.sessions s).Off) (endWritable s)
      (fun _ st => SameSetup st0 st ∧ (st.sessions s).Off ∧
        st.writable (st0.sessions s).socket = false) fun _ => False := by
  refine .get_bind fun st ⟨hsetup, hoff⟩ => ?_
  rw [(hsetup s).2.1]
  split
  · refine .modify ?_
    rintro _ rfl
    exact ⟨hsetup, hoff, by simp [AcceptorState.writable]⟩
  · next hwritable =>
    refine .pure ?_
    rintro _ rfl
    exact ⟨hsetup, hoff, Bool.eq_false_iff.mpr hwritable⟩

/-- An entry that has been removed is absent. -/
theorem triple_removeId_left (s : ℕ) :
    Triple (fun st => SameSetup st0 st ∧ (st.sessions s).Off ∧
        st.writable (st0.sessions s).socket = false)
      (removeId s) (fun _ => Left st0 s) fun _ => False := by
  have hafter : ∀ st, SameSetup st0 st ∧ (st.sessions s).Off ∧
      st.writable (st0.sessions s).socket = false → Left st0 s ((removeId s).after st) := by
    rintro st ⟨hsetup, hoff, hended⟩
    rw [after_removeId, hsetup.sessionId, AcceptorState.withoutEntry_eq]
    refine ⟨hsetup, hoff, ?_, hended⟩
    dsimp only
    rw [OrderedMap.has_eq_isSome, OrderedMap.get?_erase, if_pos rfl]
    rfl
  have hno : NoThrow (removeId s) :=
    .get_bind fun _ => .get_bind fun _ => .ite (.modify _) (.pure ())
  exact hno.triple (.of_after hafter)

theorem triple_handleLogout_left (s : ℕ) :
    Triple (fun st => SameSetup st0 st ∧ st.input.calmFor (st0.logoutCalls s) = true)
      (handleLogout s) (fun _ => Left st0 s) fun _ => False := by
  refine .bind (triple_calm fun st hsetup => (calls_runHandlers s .logout).congr ?_) fun _ => ?_
  · rw [(hsetup s).1]
  refine .bind (Q := fun _ st => SameSetup st0 st ∧
    st.input.calmFor (1 + st0.disconnectCalls s) = true) ?_ fun _ => ?_
  · refine (triple_calm (n := 0) fun st _ => ?_).conseq ?_ (fun _ _ => id) fun _ => id
    · exact calls_updateSession (fun _ => rfl) (fun _ => rfl) fun _ => rfl
    · rw [Nat.zero_add]
      exact fun _ => id
  refine .bind (triple_calm fun _ _ => calls_emit s _) fun _ => ?_
  exact .bind (triple_handleDisconnect_off s) fun _ => .bind (triple_endOwnSocket_ended s) fun _ =>
    triple_removeId_left s

/-- What is left of the session does not change in the last call of user code. -/
theorem Left.emit (h : Left st0 s st) (s' : ℕ) (event : SessionEvent) :
    Left st0 s ((emit s' event).after st) := by
  refine (performs_emit s' event fun _ => id).keeps (P := Left st0 s) ?_ h
  rintro st1 a _ (rfl | rfl) hst1 <;> exact ⟨hst1.setup, hst1.off, hst1.absent, hst1.ended⟩

theorem triple_afterLogoutSent_left (s : ℕ) :
    Triple (fun st => SameSetup st0 st ∧ st.input.calmFor (1 + st0.disconnectCalls s) = true)
      (afterLogoutSent s) (fun _ => Left st0 s) (Left st0 s) := by
  have hfalse : ∀ st : AcceptorState, False → Left st0 s st := fun _ => False.elim
  refine .bind ((triple_calm fun _ _ => calls_emit s _).conseq (fun _ => id) (fun _ _ => id) hfalse)
    fun _ => .bind ((triple_handleDisconnect_off s).conseq (fun _ => id) (fun _ _ => id) hfalse)
    fun _ => .bind ((triple_endWritable_ended s).conseq (fun _ => id) (fun _ _ => id) hfalse)
    fun _ => .bind ((triple_removeId_left s).conseq (fun _ => id) (fun _ _ => id) hfalse)
    fun _ => .of_after fun _ hst => hst.emit s _

/-- What is left of a session after it has handled a Logout. -/
theorem left_handleMessage {origin : Origin} (hm : m.getField Fields.msgType = MsgType.logout)
    (hcalm : st.input.calmFor (st.logoutCalls s) = true) :
    Left st s ((handleMessage origin s m).after st) := by
  obtain ⟨hok, herror⟩ := triple_handleLogout_left s st ⟨.refl st, hcalm⟩
  have hne : (MsgType.logout : Value) ≠ MsgType.logon := by decide
  rcases hr : (handleLogout s).result st with ⟨e | _, st'⟩
  · exact (herror e st' hr).elim
  · have hattempt : (attempt (handleLogout s)).result st = (.ok (.ok ()), st') := by
      rw [result_attempt, hr]
    have hleft := hok _ st' hr
    rw [handleMessage, hm, if_neg hne, if_pos rfl, after_bind_of_ok hattempt]
    exact ⟨hleft.setup, hleft.off, hleft.absent, hleft.ended⟩

/-- What is left of a session after its logout, even if the last listener throws. -/
theorem left_logoutSent {caller : LogoutCaller} {error : Option JSError}
    (hcalm : st.input.calmFor (1 + st.disconnectCalls s) = true) :
    Left st s ((resume (.logoutSent s caller error)).after st) := by
  have hleft : Left st s ((afterLogoutSent s).after st) :=
    (triple_afterLogoutSent_left s).after ⟨.refl st, hcalm⟩
  have hattempt : (attempt (afterLogoutSent s)).result st =
      (.ok ((afterLogoutSent s).result st).1, (afterLogoutSent s).after st) := result_attempt _ _
  rw [resume, after_bind_of_ok hattempt]
  refine (performs_settleLogout fun _ => id).keeps (P := Left st s)
    (fun st1 a _ ha hst1 => ?_) hleft
  cases caller with
  | user => exact ha.elim
  | registration s dropped =>
    obtain rfl := Set.mem_singleton_iff.mp ha
    exact ⟨hst1.setup, hst1.off, hst1.absent, hst1.ended⟩
  | closeAll k =>
    obtain rfl := Set.mem_singleton_iff.mp ha
    rw [Act.apply, AcceptorState.settled_eq]
    exact ⟨hst1.setup, hst1.off, hst1.absent, hst1.ended⟩

/-! ## The events that end in a logout -/

/-- A message that is routed to a session is passed to its `handleMessage`. -/
theorem after_processMessages {c : ℕ} {rest : List Message}
    (hs : st.lifecycle.routed m = some s) : (processMessages c (m :: rest)).after st =
      (handleMessage (.chunk c rest false) s m).after
        ((Act.observe (.dispatched c s m)).apply ((Act.observe (.processing c m)).apply st)) := by
  unfold Lifecycle.routed at hs
  split at hs
  · next hroutable =>
    simp only [routable, Bool.and_eq_true, decide_eq_true_eq] at hroutable
    obtain ⟨⟨htype, hraw⟩, hlogon⟩ := hroutable
    have hget : ((Act.observe (.processing c m)).apply st).registry.get? (buildSessionId m) =
        some s := hs
    rw [processMessages, if_pos htype]
    split
    · next e he =>
      rw [he] at hraw
      cases hraw
    · rw [after_bind_of_ok (result_observe _), if_neg hlogon, handleNonLogonMessage,
        after_bind_of_ok (result_get _), hget]
      exact after_bind_of_ok (result_observe _)
  · cases hs

/-- An event that passes a message to a session does nothing before that matters to it. -/
theorem exists_handleMessage {e : Event} {origin : Origin} (h : st.Handles e origin s m) :
    ∃ st1, (perform e).after st = (handleMessage origin s m).after st1 ∧ st1.input = st.input ∧
      SameSetup st st1 := by
  cases h with
  | @routed _ c _ _ rest hin hs =>
    cases e with
    | data x data =>
      unfold AcceptorState.incoming at hin
      dsimp only at hin
      split at hin
      · next hlistener =>
        obtain ⟨rfl, hmessages⟩ := Prod.mk.inj (Option.some.inj hin)
        have hafter : (perform (.data x data)).after st =
            (processMessages x (m :: rest)).after st := by
          rw [perform, receive, after_bind_of_ok (result_get st), if_pos hlistener, hmessages]
        exact ⟨_, hafter.trans (after_processMessages hs), rfl, fun _ => ⟨rfl, rfl, rfl⟩⟩
      · cases hin
    | resume i =>
      unfold AcceptorState.incoming at hin
      dsimp only at hin
      split at hin
      · next hf =>
        obtain ⟨rfl, rfl⟩ := Prod.mk.inj (Option.some.inj hin)
        have hs' : ((Act.take i).apply st).lifecycle.routed m = some s := hs
        exact ⟨_, (after_resume hf).trans (after_processMessages hs'), rfl,
          fun _ => ⟨rfl, rfl, rfl⟩⟩
      · cases hin
    | _ => cases hin
  | @started i c _ _ rest hf =>
    have hresult : (setupDisconnectHandler c s).result ((Act.take i).apply st) =
        (.ok (), (Act.listen c s).apply ((Act.take i).apply st)) := rfl
    exact ⟨_, (after_resume hf).trans (after_bind_of_ok hresult), rfl, fun _ => ⟨rfl, rfl, rfl⟩⟩
  | called => exact ⟨st, rfl, rfl, .refl st⟩

/-- Apart from the listeners of a `close` event and from `logout`, a session only ends when it
handles a Logout. -/
theorem handles_of_ends {e : Event} (h : s ∈ st.ends e) (hclose : e ≠ .nextListener)
    (hsent : ∀ i x caller error, e = .resume i →
      st.tasks[i]? ≠ some (.logoutSent x caller error)) :
    ∃ origin m, st.Handles e origin s m ∧ m.getField Fields.msgType = MsgType.logout := by
  unfold AcceptorState.ends at h
  split at h
  · next c ms hin =>
    obtain ⟨m, hm, hs⟩ := List.mem_flatMap.mp h
    cases ms with
    | nil => cases hm
    | cons m' rest =>
      obtain rfl := List.mem_singleton.mp hm
      unfold AcceptorState.endedBy at hs
      split at hs
      · next hlogout => exact ⟨_, m, .routed hin (Option.mem_toList.mp hs), hlogout⟩
      · cases hs
  · split at h
    · split at h
      · next hlogout =>
        obtain rfl := List.mem_singleton.mp h
        exact ⟨_, _, .called, hlogout⟩
      · cases h
    · next i _ =>
      split at h
      · next hf => exact absurd hf (hsent i _ _ _ rfl)
      · next hf =>
        split at h
        · next hlogout =>
          obtain rfl := List.mem_singleton.mp h
          exact ⟨_, _, .started hf, hlogout⟩
        · cases h
      · cases h
    · exact absurd rfl hclose
    · cases h

/-- What is left of a session after an event in which it handles a Logout. -/
theorem left_of_ends {e : Event} (h : s ∈ st.ends e) (hclose : e ≠ .nextListener)
    (hsent : ∀ i x caller error, e = .resume i → st.tasks[i]? ≠ some (.logoutSent x caller error))
    (hcalm : st.input.calmFor (st.logoutCalls s) = true) : Left st s ((perform e).after st) := by
  obtain ⟨origin, m, hhandles, hlogout⟩ := handles_of_ends h hclose hsent
  obtain ⟨st1, hafter, hinput, hsetup⟩ := exists_handleMessage hhandles
  have hcalls : st1.logoutCalls s = st.logoutCalls s := by
    unfold AcceptorState.logoutCalls
    rw [hsetup.disconnectCalls, (hsetup s).1]
  rw [hafter]
  refine (left_handleMessage hlogout ?_).of_setup hsetup
  rwa [hinput, hcalls]

theorem endingCalls_loggedOut {i x : ℕ} {caller : LogoutCaller} {error : Option JSError}
    (hf : st.tasks[i]? = some (.logoutSent x caller error)) :
    st.endingCalls (.resume i) s = 1 + st.disconnectCalls s := by
  simp [AcceptorState.endingCalls, hf]

/-- Apart from the listeners of a `close` event and from `logout`, the calls are those of
`handleLogout`. -/
theorem endingCalls_eq {e : Event} (hclose : e ≠ .nextListener)
    (hsent : ∀ i x caller error, e = .resume i →
      st.tasks[i]? ≠ some (.logoutSent x caller error)) :
    st.endingCalls e s = st.logoutCalls s := by
  cases e with
  | nextListener => exact absurd rfl hclose
  | resume i =>
    unfold AcceptorState.endingCalls
    dsimp only
    split
    · next hf => exact absurd hf (hsent i _ _ _ rfl)
    · rfl
  | _ => rfl

/-- What is left of a session after an event that ends it completely, other than the close of its
socket. -/
theorem left_of_completes {e : Event} (h : s ∈ st.completes e) (hclose : e ≠ .nextListener) :
    Left st s ((perform e).after st) := by
  rw [completes_eq hclose] at h
  obtain ⟨hends, hcalm⟩ := List.mem_filter.mp h
  by_cases hsent : ∀ i x caller error, e = .resume i →
      st.tasks[i]? ≠ some (.logoutSent x caller error)
  · rw [endingCalls_eq hclose hsent] at hcalm
    exact left_of_ends hends hclose hsent hcalm
  · push Not at hsent
    obtain ⟨i, x, caller, error, rfl, hf⟩ := hsent
    rw [ends_loggedOut hf] at hends
    obtain rfl := List.mem_singleton.mp hends
    rw [endingCalls_loggedOut hf] at hcalm
    have hcalm' : ((Act.take i).apply st).input.calmFor
        (1 + ((Act.take i).apply st).disconnectCalls s) = true := hcalm
    rw [after_resume hf]
    exact (left_logoutSent hcalm').of_setup (SameSetup.refl st)

/-- A logout that resolves, or a Logout that has been handled, ends the session completely. -/
theorem completes_of_finishes {e : Event} (h : s ∈ st.finishes e) :
    s ∈ st.completes e ∧ e ≠ .nextListener := by
  have hclose : e ≠ .nextListener := by
    rintro rfl
    cases h
  refine ⟨?_, hclose⟩
  rw [completes_eq hclose, List.mem_filter]
  by_cases hsent : ∀ i x caller error, e = .resume i →
      st.tasks[i]? ≠ some (.logoutSent x caller error)
  · rw [endingCalls_eq hclose hsent]
    have hfilter : s ∈ (st.ends e).filter fun s => st.input.calmFor (st.logoutCalls s) := by
      cases e with
      | nextListener => cases h
      | resume i =>
        unfold AcceptorState.finishes at h
        dsimp only at h
        split at h
        · next hf => exact absurd hf (hsent i _ _ _ rfl)
        · exact h
      | _ => exact h
    exact List.mem_filter.mp hfilter
  · push Not at hsent
    obtain ⟨i, x, caller, error, rfl, hf⟩ := hsent
    have hfinishes : st.finishes (.resume i) =
        if st.input.calmFor (2 + st.disconnectCalls x) then [x] else [] := by
      simp only [AcceptorState.finishes, hf]
    rw [hfinishes] at h
    split at h
    · next hcalm =>
      obtain rfl := List.mem_singleton.mp h
      have hle : 1 + st.disconnectCalls s ≤ 2 + st.disconnectCalls s := by omega
      rw [ends_loggedOut hf, endingCalls_loggedOut hf]
      exact ⟨List.mem_singleton_self s, Input.calmFor_of_le hle hcalm⟩
    · cases h

/-- After an event in which the logout of a session comes to its end, its id has no entry. -/
theorem absent_of_finishes {e : Event} (h : s ∈ st.finishes e) :
    ((perform e).after st).registry.has (st.sessions s).sessionId = false := by
  obtain ⟨hcompletes, hclose⟩ := completes_of_finishes h
  exact (left_of_completes hcompletes hclose).absent

/-- Such an event ends the session. -/
theorem ends_of_finishes {e : Event} (h : s ∈ st.finishes e) : s ∈ st.ends e :=
  ends_of_completes (completes_of_finishes h).1

end NestQuickfix.Acceptor
