import NestQuickfix.Acceptor.Lifecycle

/-!
# Code that keeps the life of sessions

Sending, logging, waiting and calling users changes neither the timers nor the
registry nor the listeners. It may make a session leave LOGGED_ON.
-/

namespace NestQuickfix.Acceptor

open Lib Lifecycle

/-- Sessions may have left LOGGED_ON; nothing else in their life has changed. -/
def SameLife (st st' : AcceptorState) : Prop := Lowered st.lifecycle st'.lifecycle

theorem SameLife.refl (st : AcceptorState) : SameLife st st := Lowered.refl st.lifecycle

theorem SameLife.of_eq {st st' : AcceptorState} (h : st'.lifecycle = st.lifecycle) :
    SameLife st st' := by
  rw [SameLife, h]
  exact Lowered.refl st.lifecycle

/-- The code keeps the life of sessions. -/
def Keeps {α : Type} (x : AcceptorM α) : Prop := Exec.Ensures SameLife x

namespace Keeps

variable {α β : Type} {x : AcceptorM α}

theorem pure (a : α) : Keeps (Pure.pure a : AcceptorM α) := Exec.Ensures.pure SameLife.refl a

theorem throw (e : JSError) : Keeps (MonadExcept.throw e : AcceptorM α) :=
  Exec.Ensures.throw SameLife.refl e

theorem bind {f : α → AcceptorM β} (hx : Keeps x) (hf : ∀ a, Keeps (f a)) : Keeps (x >>= f) :=
  Exec.Ensures.bind Lowered.trans hx hf

theorem get_bind {f : AcceptorState → AcceptorM β} (hf : ∀ st, Keeps (f st)) :
    Keeps (get >>= f) :=
  bind (Exec.Ensures.get SameLife.refl) hf

theorem attempt (hx : Keeps x) : Keeps (Exec.attempt x) := Exec.Ensures.attempt hx

theorem discard (hx : Keeps x) : Keeps (discard x) := bind hx fun _ => pure _

theorem forEach {as : List α} {f : α → AcceptorM Unit} (hf : ∀ a, Keeps (f a)) :
    Keeps (Exec.forEach as f) :=
  Exec.Ensures.forEach SameLife.refl Lowered.trans as hf

theorem ite {p : Prop} [Decidable p] {y : AcceptorM α} (hx : Keeps x) (hy : Keeps y) :
    Keeps (if p then x else y) := by
  split
  · exact hx
  · exact hy

theorem modify {f : AcceptorState → AcceptorState} (h : ∀ st, (f st).lifecycle = st.lifecycle) :
    Keeps (modify f : AcceptorM Unit) :=
  Exec.Ensures.modify fun st => SameLife.of_eq (h st)

end Keeps

/-! ## Elementary actions -/

/-- A projection that an update keeps is the same function afterwards. -/
theorem proj_update {α β : Type} {g : α → β} {f : ℕ → α} {i : ℕ} {a : α} (h : g a = g (f i)) :
    (fun x => g (Function.update f i a x)) = fun x => g (f x) := by
  have hcomp := Function.comp_update g f i a
  rwa [h, ← Function.comp_apply (f := g), Function.update_eq_self] at hcomp

/-- The life of sessions after a change of one session. -/
theorem sameLife_updateSession {st : AcceptorState} {s : ℕ} {f : Session → Session}
    (hconfig : (f (st.sessions s)).config = (st.sessions s).config)
    (hsocket : (f (st.sessions s)).socket = (st.sessions s).socket)
    (htimer : (f (st.sessions s)).heartbeatTimer = (st.sessions s).heartbeatTimer)
    (hstate : (f (st.sessions s)).state = .loggedOn → (st.sessions s).state = .loggedOn) :
    SameLife st { st with sessions := Function.update st.sessions s (f (st.sessions s)) } := by
  have hid : (f (st.sessions s)).sessionId = (st.sessions s).sessionId := by
    rw [Session.sessionId, hconfig]
    rfl
  refine ⟨fun x => decide ((Function.update st.sessions s (f (st.sessions s)) x).state = .loggedOn),
    fun x hx => ?_, ?_⟩
  · have hx := of_decide_eq_true hx
    by_cases hxs : x = s
    · subst x
      rw [Function.update_self] at hx
      exact decide_eq_true (hstate hx)
    · rw [Function.update_of_ne hxs] at hx
      exact decide_eq_true hx
  · unfold AcceptorState.lifecycle
    rw [proj_update hid, proj_update (g := Session.socket) hsocket,
      proj_update (g := Session.heartbeatTimer) htimer]

theorem keeps_updateSession {s : ℕ} {f : Session → Session}
    (hconfig : ∀ x, (f x).config = x.config) (hsocket : ∀ x, (f x).socket = x.socket)
    (htimer : ∀ x, (f x).heartbeatTimer = x.heartbeatTimer)
    (hstate : ∀ x, (f x).state = .loggedOn → x.state = .loggedOn) : Keeps (updateSession s f) :=
  Exec.Ensures.modify fun _ => sameLife_updateSession (hconfig _) (hsocket _) (htimer _) (hstate _)

/-- The life of sessions after a change of one socket. -/
theorem lifecycle_updateSocket {st : AcceptorState} {c : ℕ} {f : Connection → Connection}
    (hclosed : (f (st.sockets c)).closed = (st.sockets c).closed)
    (hlisteners : (f (st.sockets c)).closeListeners = (st.sockets c).closeListeners) :
    { st with sockets := Function.update st.sockets c (f (st.sockets c)) }.lifecycle =
      st.lifecycle := by
  unfold AcceptorState.lifecycle
  rw [proj_update (g := Connection.closed) hclosed,
    proj_update (g := Connection.closeListeners) hlisteners]

theorem keeps_updateSocket {c : ℕ} {f : Connection → Connection}
    (hclosed : ∀ x, (f x).closed = x.closed)
    (hlisteners : ∀ x, (f x).closeListeners = x.closeListeners) : Keeps (updateSocket c f) :=
  Keeps.modify fun _ => lifecycle_updateSocket (hclosed _) (hlisteners _)

theorem lifecycle_suspend (st : AcceptorState) (frame : Frame) :
    { st with tasks := st.tasks ++ [frame] }.lifecycle =
      match frame.pending with
      | none => st.lifecycle
      | some p => st.lifecycle.suspend p := by
  unfold AcceptorState.lifecycle Lifecycle.suspend
  rw [List.filterMap_append]
  cases h : frame.pending with
  | none => simp [h]
  | some p =>
    simp only [h, List.filterMap_cons, List.filterMap_nil, Lifecycle.mk.injEq, true_and, and_true]
    rw [← Multiset.coe_add, Multiset.add_comm]
    rfl

theorem keeps_suspend {frame : Frame} (h : frame.pending = none) : Keeps (suspend frame) :=
  Keeps.modify fun st => by rw [lifecycle_suspend, h]

theorem lifecycle_observe (st : AcceptorState) (o : Observation) :
    { st with trace := st.trace ++ [o] }.lifecycle =
      if o.vital then st.lifecycle.observe o else st.lifecycle := by
  unfold AcceptorState.lifecycle Lifecycle.observe
  rw [List.filter_append]
  by_cases h : o.vital = true
  · simp [h]
  · simp [h]

theorem keeps_observe {o : Observation} (h : o.vital = false) : Keeps (observe o) :=
  Keeps.modify fun st => by simp [lifecycle_observe, h]

theorem keeps_callUser : Keeps callUser := by
  refine .get_bind fun st => .bind (.modify fun _ => rfl) fun _ => ?_
  split
  · exact .pure _
  · exact .throw _

theorem keeps_destroy (c : ℕ) : Keeps (destroy c) :=
  keeps_updateSocket (fun _ => rfl) fun _ => rfl

theorem keeps_endSocket (c : ℕ) : Keeps (endSocket c) :=
  keeps_updateSocket (fun _ => rfl) fun _ => rfl

/-! ## Sessions -/

theorem keeps_callHandlers {kind : HandlerKind} (s : ℕ) :
    Keeps (get >>= fun st : AcceptorState =>
      Exec.forEach ((st.sessions s).handlers.simple kind) fun _ => callUser) :=
  .get_bind fun _ => .forEach fun _ => keeps_callUser

theorem keeps_runHandlers {kind : HandlerKind} (s : ℕ) (h : kind ≠ .disconnected) :
    Keeps (runHandlers s kind) := by
  refine .bind (keeps_observe ?_) fun _ => keeps_callHandlers s
  cases kind with
  | disconnected => exact absurd rfl h
  | _ => rfl

theorem keeps_emit {event : SessionEvent} (s : ℕ) (h : event ≠ .disconnect) :
    Keeps (emit s event) := by
  refine .bind (keeps_observe ?_) fun _ => keeps_callUser
  cases event with
  | disconnect => exact absurd rfl h
  | _ => rfl

theorem keeps_registerSessionHandlers (s : ℕ) (metadata : FixMetadata) :
    Keeps (registerSessionHandlers s metadata) := by
  refine keeps_updateSession (fun x => ?_) (fun x => ?_) (fun x => ?_) fun x => ?_
  all_goals
    dsimp only
    split
  all_goals first | rfl | exact id

theorem keeps_observeWrite (s : ℕ) (written : Option (Message × JSString)) :
    Keeps (observeWrite s written) := by
  cases written with
  | none => exact .pure ()
  | some w => exact keeps_observe rfl

theorem keeps_startSend (s : ℕ) (m : Message) : Keeps (startSend s m) := by
  refine .get_bind fun st => .bind ?_ fun _ => .bind (keeps_observeWrite s _) fun _ => .pure _
  exact keeps_updateSession (fun _ => rfl) (fun _ => rfl) (fun _ => rfl) fun _ => id

theorem keeps_sendError (error : Option JSError) : Keeps (sendError error) :=
  .get_bind fun _ => .pure _

theorem keeps_heartbeat (s : ℕ) : Keeps (heartbeat s) :=
  .get_bind fun _ => .ite (.discard (keeps_startSend s _)) (.pure ())

theorem keeps_endOwnSocket (s : ℕ) : Keeps (endOwnSocket s) :=
  .get_bind fun _ => keeps_endSocket _

theorem keeps_endWritable (s : ℕ) : Keeps (endWritable s) :=
  .get_bind fun _ => .ite (keeps_endSocket _) (.pure ())

/-- The caller of a logout that no registration waits for. -/
def LogoutCaller.idle : LogoutCaller → Bool
  | .registration _ _ => false
  | _ => true

theorem keeps_settleLogout {caller : LogoutCaller} (h : caller.idle = true)
    (result : Except JSError Unit) : Keeps (settleLogout caller result) := by
  cases caller with
  | user => exact .pure ()
  | registration s dropped => cases h
  | closeAll k =>
    refine .get_bind fun st => ?_
    split
    · exact .pure ()
    · exact .bind (.modify fun _ => rfl) fun _ => .ite (keeps_suspend rfl) (.pure ())

theorem keeps_logout {s : ℕ} {caller : LogoutCaller} (h : caller.idle = true) (reason : Value) :
    Keeps (logout s reason caller) := by
  refine .get_bind fun st => .ite (keeps_settleLogout h _) (.bind ?_ fun _ =>
    .bind (keeps_startSend s _) fun _ => keeps_suspend ?_)
  · exact keeps_updateSession (fun _ => rfl) (fun _ => rfl) (fun _ => rfl) fun _ h => by cases h
  · cases caller with
    | registration s dropped => cases h
    | _ => rfl

theorem keeps_closeAll (stopping : Bool) : Keeps (closeAll stopping) :=
  .get_bind fun _ => .bind (.modify fun _ => rfl) fun _ =>
    .ite (keeps_suspend rfl) (.forEach fun _ => keeps_logout rfl _)

theorem keeps_destroyFailed (c : ℕ) (logon : Bool) (result : Except JSError Unit) :
    Keeps (destroyFailed c logon result) := by
  cases result with
  | ok _ => exact .pure ()
  | error e => exact .ite (keeps_destroy c) (.pure ())

theorem keeps_settleMessage (origin : Origin) (result : Except JSError Unit) :
    Keeps (settleMessage origin result) := by
  cases origin with
  | user => exact .pure ()
  | chunk c rest logon => exact .bind (keeps_destroyFailed c logon result) fun _ => keeps_suspend rfl

theorem keeps_runMessageHandlers (origin : Origin) (s : ℕ) (m : Message) (next : ℕ) :
    Keeps (runMessageHandlers origin s m next) := by
  refine .get_bind fun st => ?_
  split
  · exact keeps_settleMessage origin _
  · refine .bind (keeps_observe rfl) fun _ => .bind (.attempt keeps_callUser) fun result => ?_
    cases result with
    | ok _ => exact keeps_suspend rfl
    | error e => exact keeps_settleMessage origin _

theorem keeps_afterLogonResponse (s : ℕ) (error : Option JSError) :
    Keeps (afterLogonResponse s error) := by
  cases error with
  | some e => exact .throw e
  | none =>
    exact .bind (keeps_runHandlers s (by decide)) fun _ =>
      .bind (keeps_runHandlers s (by decide)) fun _ => keeps_emit s (by decide)

theorem keeps_startTestRequestReply (origin : Origin) (s : ℕ) (m : Message) :
    Keeps (startTestRequestReply origin s m) :=
  .bind (keeps_startSend s _) fun _ => keeps_suspend rfl

/-! ## Routing -/

theorem keeps_socketError (c : ℕ) (e : JSError) : Keeps (socketError c e) :=
  .bind (.get_bind fun _ => .ite (keeps_observe rfl) (keeps_observe rfl)) fun _ => keeps_destroy c

theorem keeps_failEndedWrite (c : ℕ) : Keeps (failEndedWrite c) :=
  .get_bind fun _ => .ite (keeps_socketError c _) (.pure ())

theorem keeps_sendLogoutAndClose (c : ℕ) (m : Message) (rest : List Message) (reason : JSString) :
    Keeps (sendLogoutAndClose c m rest reason) := by
  refine .get_bind fun st => ?_
  split
  · exact .throw _
  · exact .bind (.bind (keeps_observe rfl) fun _ => keeps_failEndedWrite c) fun _ =>
      keeps_suspend rfl

theorem keeps_refuseMessage (c : ℕ) (m : Message) (rest : List Message) (reason : JSString) :
    Keeps (refuseMessage c m rest reason) := by
  refine .bind (.attempt (keeps_sendLogoutAndClose c m rest reason)) fun result => ?_
  cases result with
  | ok _ => exact .pure ()
  | error e => exact keeps_suspend rfl

theorem keeps_refuseThrownLogon (c : ℕ) (m : Message) (rest : List Message) (reason : JSString) :
    Keeps (refuseThrownLogon c m rest reason) := by
  refine .bind (.attempt (keeps_sendLogoutAndClose c m rest reason)) fun result => ?_
  cases result with
  | ok _ => exact .pure ()
  | error e => exact .bind (keeps_destroy c) fun _ => keeps_suspend rfl

theorem keeps_refuseLogon (c : ℕ) (m : Message) (rest : List Message) (reason : JSString) :
    Keeps (refuseLogon c m rest reason) := by
  refine .bind (.attempt (keeps_sendLogoutAndClose c m rest reason)) fun result => ?_
  cases result with
  | ok _ => exact .pure ()
  | error e => exact keeps_refuseThrownLogon c m rest e

theorem keeps_validateLogon (c : ℕ) (m : Message) (rest : List Message) :
    Keeps (validateLogon c m rest) := by
  refine .get_bind fun st => ?_
  split
  · exact keeps_suspend rfl
  · exact .ite (keeps_suspend rfl) (.ite (keeps_suspend rfl) (keeps_suspend rfl))

theorem keeps_afterValidateCredentials (c : ℕ) (m : Message) (rest : List Message) :
    Keeps (afterValidateCredentials c m rest) := by
  refine .get_bind fun st => ?_
  split
  · exact keeps_suspend rfl
  · exact .ite (keeps_suspend rfl) (keeps_suspend rfl)

theorem keeps_afterGetAllowedSenderCompIds (c : ℕ) (m : Message) (rest : List Message) :
    Keeps (afterGetAllowedSenderCompIds c m rest) := by
  refine .get_bind fun st => ?_
  split
  · exact keeps_suspend rfl
  · exact .ite (keeps_suspend rfl) (keeps_suspend rfl)

theorem keeps_setupSessionHandlers (s : ℕ) : Keeps (setupSessionHandlers s) :=
  .get_bind fun _ => .forEach fun metadata => keeps_registerSessionHandlers s metadata

theorem keeps_handleDataError (e : JSError) (c : ℕ) : Keeps (handleDataError e c) :=
  .bind (keeps_observe rfl) fun _ => keeps_destroy c

theorem keeps_closeAllSockets : Keeps closeAllSockets :=
  .get_bind fun _ => .bind (.forEach keeps_destroy) fun _ => .modify fun _ => rfl

/-! ## Tasks -/

theorem keeps_resume_logonResponse (origin : Origin) (s : ℕ) (m : Message)
    (error : Option JSError) : Keeps (resume (.logonResponse origin s m error)) := by
  refine .bind (keeps_sendError error) fun error => .bind
    (.attempt (keeps_afterLogonResponse s error)) fun result => ?_
  cases result with
  | ok _ => exact keeps_suspend rfl
  | error e =>
    refine .bind ?_ fun _ => keeps_settleMessage origin _
    exact keeps_updateSession (fun _ => rfl) (fun _ => rfl) (fun _ => rfl) fun _ h => by cases h

theorem keeps_resume_testRequestReply (origin : Origin) (s : ℕ) (m : Message)
    (error : Option JSError) : Keeps (resume (.testRequestReply origin s m error)) := by
  refine .bind (keeps_sendError error) fun error => ?_
  cases error with
  | none => exact keeps_suspend rfl
  | some e => exact keeps_settleMessage origin _

theorem keeps_resume_handlerPending (origin : Origin) (s : ℕ) (m : Message) (next : ℕ) :
    Keeps (resume (.handlerPending origin s m next)) := by
  refine .get_bind fun st => ?_
  split
  · exact keeps_runMessageHandlers origin s m next
  · exact keeps_settleMessage origin _

end NestQuickfix.Acceptor
