import Mathlib.Algebra.BigOperators.Group.Finset.Basic
import Mathlib.Algebra.Order.Group.Nat
import Mathlib.Algebra.Order.Monoid.Prod
import NestQuickfix.Acceptor.Refusals
import NestQuickfix.Acceptor.TearDowns
import NestQuickfix.Lib.Potential

/-!
# Settling

Whatever has been received, the acceptor comes to rest: after finitely many steps that go
on with a task, close a socket or call a `close` listener nothing is left to go on with.
Every task has a cost, which bounds the Logons that may still create a session behind it
and the steps it may still lead to. A Logon adds message handlers to its session, and every
message may have to wait for all of them. An open socket costs its close and the calls of
its listeners, and a Logon adds a listener.
-/

namespace NestQuickfix.Acceptor

open Lib Lib.Exec

variable {U : ℕ} {guard : AcceptorState → Step → Prop} {st st' : AcceptorState} {e : Step}

/-! ## Costs -/

/-- What a loop over messages costs: the Logons it may find, and its steps. -/
def restCost (U : ℕ) (rest : List Message) : ℕ × ℕ :=
  (rest.length, 1 + rest.length * (11 + U))

/-- What follows after `handleMessage`. -/
def Origin.cost (U : ℕ) : Origin → ℕ × ℕ
  | .chunk _ rest _ => restCost U rest
  | .user => 0

/-- What follows after `logout`. -/
def LogoutCaller.cost : LogoutCaller → ℕ
  | .user => 0
  | .registration .. => 1
  | .closeAll _ => 2

/-- What a task costs while no session has more than `U` message handlers. -/
def Frame.cost (U : ℕ) : Frame → ℕ × ℕ
  | .nextMessage _ rest => restCost U rest
  | .validateCredentials _ _ rest => (1, 10 + U) + restCost U rest
  | .getAllowedSenderCompIds _ _ rest => (1, 9 + U) + restCost U rest
  | .validated _ _ rest _ => (1, 8 + U) + restCost U rest
  | .closeDelay _ rest => (0, 1) + restCost U rest
  | .created _ _ _ rest => (1, 5 + U) + restCost U rest
  | .handlersSet _ _ _ rest => (0, 4 + U) + restCost U rest
  | .logonResponse origin _ _ _ => (0, 3 + U) + origin.cost U
  | .testRequestReply origin _ _ _ => (0, 3 + U) + origin.cost U
  | .messageHandlers origin _ _ => (0, 2 + U) + origin.cost U
  | .handlerPending origin _ _ next => (0, 1 + (U - next)) + origin.cost U
  | .logoutSent _ caller _ => (0, 1 + caller.cost)
  | .registration .. => (0, 1)
  | .allClosed .. => (0, 2)
  | .closeAllSockets => (0, 1)

/-- What the tasks of a state cost. -/
def AcceptorState.cost (U : ℕ) (st : AcceptorState) : ℕ × ℕ := (st.tasks.map (Frame.cost U)).sum

/-- What is left of a `close` event. -/
def closingCost : Option (ℕ × List CloseListener) → ℕ
  | none => 0
  | some (_, listeners) => 1 + listeners.length

/-- What is left of a socket that is open: its close, and the calls of its listeners. -/
def Connection.closeCost (x : Connection) : ℕ :=
  if x.closed then 0 else 2 + x.closeListeners.length

/-- What is left of the sockets of a state. -/
def AcceptorState.openCost (st : AcceptorState) : ℕ :=
  ∑ c ∈ Finset.range st.nextSocket, (st.sockets c).closeCost

/-- The steps in which a state comes to rest. A step of a task may add a listener to a socket. -/
def AcceptorState.steps (U : ℕ) (st : AcceptorState) : ℕ :=
  2 * (st.cost U).2 + closingCost st.closing + st.openCost

/-- No session has more than `U` message handlers. -/
def HandlersWithin (U : ℕ) (st : AcceptorState) : Prop :=
  ∀ s, (st.sessions s).handlers.message.length ≤ U

/-- Nor will it have more after the Logons under way. -/
def Fits (U : ℕ) (st : AcceptorState) : Prop :=
  ∃ B, HandlersWithin B st ∧ B + st.config.metadata.length * (st.cost U).1 ≤ U

theorem HandlersWithin.mono {B : ℕ} (h : HandlersWithin B st) (hB : B ≤ U) :
    HandlersWithin U st := fun s => (h s).trans hB

/-- What the acceptor does of its own accord. -/
def Event.goesOn : Event → Bool
  | .resume _ | .nextListener => true
  | _ => false

/-- What still happens when nothing new arrives: sockets may close. -/
def Event.windsDown : Event → Bool
  | .close _ => true
  | e => e.goesOn

/-- Nothing is left to go on with. -/
structure AcceptorState.Settled (st : AcceptorState) : Prop where
  tasks : st.tasks = []
  closing : st.closing = none

/-- All sockets are closed. -/
def AcceptorState.AllClosed (st : AcceptorState) : Prop :=
  ∀ c < st.nextSocket, (st.sockets c).closed = true

/-! ## Code without costs -/

/-- An act that changes neither the tasks nor the message handlers of a session. -/
def Act.free : Act → Bool
  | .suspend _ | .take _ | .addHandlers .. | .callCloseAll _ | .settleCloseAll .. => false
  | _ => true

theorem tasks_free {a : Act} (ha : a.free = true) (st : AcceptorState) :
    (a.apply st).tasks = st.tasks := by
  have htake : ∀ i, a ≠ .take i := by
    rintro i rfl
    cases ha
  rw [tasks_apply htake]
  cases a <;> first | exact List.append_nil _ | cases ha

/-- The message handlers of a session after an act. -/
theorem handlers_free {a : Act} (ha : ∀ s metadata, a ≠ .addHandlers s metadata)
    (st : AcceptorState) (s : ℕ) : ((a.apply st).sessions s).handlers.message.length ≤
      (st.sessions s).handlers.message.length := by
  have hsession : ∀ x (f : Session → Session), (∀ y, (f y).handlers = y.handlers) →
      (Function.update st.sessions x (f (st.sessions x)) s).handlers.message.length ≤
        (st.sessions s).handlers.message.length := by
    intro x f hf
    by_cases hx : s = x
    · subst hx
      rw [Function.update_self, hf]
    · rw [Function.update_of_ne hx]
  cases hchanges : a.changesSessions with
  | false => rw [sessions_apply hchanges]
  | true =>
    cases a with
    | addHandlers x metadata => exact absurd rfl (ha x metadata)
    | create config c =>
      by_cases hs : s = st.nextSession
      · subst hs
        simp [Act.apply]
      · simp [Act.apply, hs]
    | beginLogout x =>
      refine hsession x (fun y => if y.state = .disconnected then y
        else { y with state := .loggingOut }) fun y => ?_
      split <;> rfl
    | setState x state => exact hsession x (fun y => { y with state := state }) fun _ => rfl
    | count x =>
      exact hsession x (fun y => { y with nextOutgoingSeqNum := y.nextOutgoingSeqNum + 1 })
        fun _ => rfl
    | disconnect x =>
      exact hsession x (fun y => Session.clearTimers { y with state := .disconnected })
        fun _ => rfl
    | _ => cases hchanges

theorem HandlersWithin.apply {a : Act} (h : HandlersWithin U st)
    (ha : ∀ s metadata, a ≠ .addHandlers s metadata) : HandlersWithin U (a.apply st) :=
  fun s => (handlers_free ha st s).trans (h s)

theorem cost_congr (h : st'.tasks = st.tasks) : st'.cost U = st.cost U := by
  rw [AcceptorState.cost, h, AcceptorState.cost]

theorem ne_addHandlers_of_free {a : Act} (ha : a.free = true) (s : ℕ) (metadata : FixMetadata) :
    a ≠ .addHandlers s metadata := by
  rintro rfl
  cases ha

/-- A computation and what it costs at most. -/
abbrev CostsAtMost (U : ℕ) (n : ℕ × ℕ) {α : Type} (x : AcceptorM α) : Prop :=
  Costs (HandlersWithin U) (AcceptorState.cost U) n x

variable {n n' : ℕ × ℕ} {α : Type} {frame : Frame} {origin : Origin} {rest : List Message}

theorem free_of_performs {x : AcceptorM α}
    (h : ∀ st, ∃ A, Performs A st x ∧ ∀ a ∈ A, a.free = true) : CostsAtMost U 0 x := by
  intro st hst
  obtain ⟨A, hx, hA⟩ := h st
  refine ⟨hx.keeps (fun st1 a _ ha h1 => h1.apply (ne_addHandlers_of_free (hA a ha))) hst, ?_⟩
  have htasks : (x.after st).tasks = st.tasks :=
    hx.eq_of (f := AcceptorState.tasks) fun st1 a ha => tasks_free (hA a ha) st1
  rw [cost_congr htasks, add_zero]

theorem free_modify {f : AcceptorState → AcceptorState} (htasks : ∀ st, (f st).tasks = st.tasks)
    (hsessions : ∀ st s, ((f st).sessions s).handlers = (st.sessions s).handlers) :
    CostsAtMost U 0 (modify f : AcceptorM Unit) := by
  refine .modify fun st hst => ⟨fun s => ?_, ?_⟩
  · rw [hsessions]
    exact hst s
  · rw [cost_congr (htasks st), add_zero]

theorem costs_suspend (frame : Frame) : CostsAtMost U (frame.cost U) (suspend frame) := by
  refine .modify fun st hst => ⟨hst, ?_⟩
  simp [AcceptorState.cost]

theorem free_send {s : ℕ} {a : Act} (ha : a ∈ sendActs s) : a.free = true := by
  rcases ha with rfl | ⟨_, _, rfl⟩ <;> rfl

theorem free_tearDown {s : ℕ} {q : Prop} {a : Act} (ha : a ∈ tearDownActs s q) :
    a.free = true := by
  rcases ha with (rfl | rfl | rfl | ⟨_, rfl⟩) | ⟨_, rfl | rfl⟩ <;> rfl

theorem free_startSend (s : ℕ) (m : Message) : CostsAtMost U 0 (startSend s m) :=
  free_of_performs fun _ => ⟨_, performs_startSend s m fun _ => id, fun _ => free_send⟩

theorem free_observe (o : Observation) : CostsAtMost U 0 (observe o) :=
  free_modify (fun _ => rfl) fun _ _ => rfl

theorem free_destroy (c : ℕ) : CostsAtMost U 0 (destroy c) :=
  free_modify (fun _ => rfl) fun _ _ => rfl

theorem free_failEndedWrite (c : ℕ) : CostsAtMost U 0 (failEndedWrite c) :=
  free_of_performs fun _ => ⟨_, performs_failEndedWrite fun _ => id, by
    rintro a (rfl | ⟨_, rfl⟩ | ⟨_, rfl⟩) <;> rfl⟩

theorem free_callUser : CostsAtMost U 0 callUser :=
  free_of_performs fun _ => ⟨{.consume}, performs_callUser rfl, by
    rintro a rfl
    rfl⟩

theorem free_sendError (error : Option JSError) : CostsAtMost U 0 (sendError error) :=
  .get_bind fun _ _ => .pure _

theorem free_setState (s : ℕ) (state : SessionState) :
    CostsAtMost U 0 (updateSession s fun x => { x with state := state }) :=
  free_of_performs fun _ => ⟨_, performs_setState rfl, by
    rintro a rfl
    rfl⟩

theorem free_sendLogonResponse (s : ℕ) : CostsAtMost U 0 (sendLogonResponse s) := by
  refine .get_bind fun st _ => .bind_of_free (free_startSend s _) fun error => ?_
  cases error with
  | none => exact .bind_of_free (free_observe _) fun _ => .pure _
  | some _ => exact .pure _

theorem free_handleLogout (s : ℕ) : CostsAtMost U 0 (handleLogout s) :=
  free_of_performs fun st => ⟨_, performs_handleLogout s fun _ => id, by
    rintro a ((((rfl | rfl) | rfl | rfl) | rfl) | ha)
    on_goal 6 => exact free_tearDown ha
    all_goals rfl⟩

theorem free_afterLogonResponse (s : ℕ) (error : Option JSError) :
    CostsAtMost U 0 (afterLogonResponse s error) :=
  free_of_performs fun _ => ⟨_, performs_afterLogonResponse error fun _ => id, by
    rintro a (((rfl | rfl) | rfl | rfl) | rfl | rfl) <;> rfl⟩

theorem free_afterLogoutSent (s : ℕ) : CostsAtMost U 0 (afterLogoutSent s) :=
  free_of_performs fun st => ⟨_, performs_afterLogoutSent s fun _ => id, by
    rintro a (((rfl | rfl) | rfl | rfl) | ha)
    on_goal 5 => exact free_tearDown ha
    all_goals rfl⟩

theorem free_finishRegistration (s : ℕ) (dropped : Bool) :
    CostsAtMost U 0 (finishRegistration s dropped) :=
  free_of_performs fun st => ⟨_, performs_finishRegistration s dropped fun _ => id, by
    rintro a (⟨_, rfl⟩ | ⟨_, rfl⟩) <;> rfl⟩

/-! ## The costs of the code -/

/-- A logout that settles at once, or is sent. -/
theorem costs_settleLogout (caller : LogoutCaller) (result : Except JSError Unit) :
    CostsAtMost U (0, caller.cost) (settleLogout caller result) := by
  cases caller with
  | user => exact .pure ()
  | registration s dropped => exact costs_suspend _
  | closeAll k =>
    intro st hst
    rw [after_settleLogout]
    refine ⟨hst.apply (a := .settleCloseAll k result) (by simp), ?_⟩
    have htasks := tasks_apply (a := .settleCloseAll k result) (by simp) st
    rw [AcceptorState.cost, show (st.settled k result).tasks = _ from htasks, List.map_append,
      List.sum_append]
    refine add_le_add_right ?_ _
    unfold Act.adds
    dsimp only
    split
    · exact Prod.mk_le_mk.mpr ⟨Nat.le_refl 0, Nat.zero_le _⟩
    · split
      · simp [Frame.cost, LogoutCaller.cost]
      · exact Prod.mk_le_mk.mpr ⟨Nat.le_refl 0, Nat.zero_le _⟩

theorem costs_logout (s : ℕ) (reason : Value) (caller : LogoutCaller) :
    CostsAtMost U (0, 1 + caller.cost) (logout s reason caller) := by
  refine .get_bind fun st _ => .ite (fun _ => ?_) fun _ => ?_
  · exact (costs_settleLogout caller _).mono (Prod.mk_le_mk.mpr ⟨Nat.le_refl 0, by omega⟩)
  · exact .bind_of_free (free_setState s _) fun _ => .bind_of_free (free_startSend s _) fun _ =>
      costs_suspend _

theorem costs_registerSession (s : ℕ) (dropped : Bool) :
    CostsAtMost U (0, 2) (registerSession s dropped) := by
  refine .get_bind fun st _ => ?_
  split
  · exact (free_finishRegistration s dropped).mono zero_le
  · exact costs_logout _ _ (.registration s dropped)

theorem costs_settleMessage (origin : Origin) (result : Except JSError Unit) :
    CostsAtMost U (origin.cost U) (settleMessage origin result) := by
  cases origin with
  | user => exact .pure ()
  | chunk c rest logon =>
    refine .bind_of_free ?_ fun _ => costs_suspend _
    cases result with
    | ok _ => exact .pure ()
    | error _ => exact .ite (fun _ => free_destroy c) fun _ => .pure ()

/-- The next handler is one of the handlers that are left. -/
theorem nextHandler_bounds {msgType : Value} {handlers : List MessageHandler} {next i : ℕ}
    (h : nextHandler msgType handlers next = some i) : next ≤ i ∧ i < next + handlers.length := by
  induction handlers generalizing next with
  | nil => cases h
  | cons handler handlers ih =>
    rw [nextHandler] at h
    split at h
    · obtain rfl := Option.some.inj h
      exact ⟨Nat.le_refl _, by simp⟩
    · obtain ⟨hle, hlt⟩ := ih h
      rw [List.length_cons]
      omega

/-- The loop over the handlers of a session goes on behind the handler it calls. -/
theorem costs_runMessageHandlers (origin : Origin) (s : ℕ) (m : Message) (next : ℕ) :
    CostsAtMost U ((0, U - next) + origin.cost U) (runMessageHandlers origin s m next) := by
  refine .get_bind fun st hst => ?_
  split
  · exact (costs_settleMessage origin _).mono le_add_self
  · next i hi =>
    have hbounds := nextHandler_bounds hi
    rw [List.length_drop] at hbounds
    have hU := hst s
    refine .bind_of_free (free_observe _) fun _ => .bind_of_free free_callUser.attempt fun r => ?_
    cases r with
    | ok _ =>
      refine (costs_suspend _).mono (add_le_add_left (Prod.mk_le_mk.mpr ⟨Nat.le_refl 0, ?_⟩) _)
      omega
    | error _ => exact (costs_settleMessage origin _).mono le_add_self

theorem costs_handleMessage (origin : Origin) (s : ℕ) (m : Message) :
    CostsAtMost U ((0, 3 + U) + origin.cost U) (handleMessage origin s m) := by
  have hless : ∀ k, k ≤ 3 + U → (0, k) + origin.cost U ≤ (0, 3 + U) + origin.cost U := fun k hk =>
    add_le_add_left (Prod.mk_le_mk.mpr ⟨Nat.le_refl 0, hk⟩) _
  unfold handleMessage
  refine .ite (fun _ => ?_) fun _ => .ite (fun _ => ?_) fun _ => .ite (fun _ => ?_) fun _ => ?_
  · exact .bind_of_free (free_setState s _) fun _ => .bind_of_free (free_sendLogonResponse s)
      fun _ => costs_suspend _
  · refine .bind_of_free (free_handleLogout s).attempt fun r => ?_
    cases r with
    | ok _ => exact (costs_suspend _).mono (hless (2 + U) (by omega))
    | error _ => exact (costs_settleMessage origin _).mono le_add_self
  · exact .bind_of_free (free_startSend s _) fun _ => costs_suspend _
  · exact (costs_runMessageHandlers origin s m 0).mono (hless (U - 0) (by omega))

/-! ## Refusals and Logons -/

section Messages

variable (c : ℕ) (m : Message) (rest : List Message)

/-- A Logout that cannot be encoded costs nothing, so the loop can go on after it. -/
theorem costs_refusal (reason : JSString) {f : Except JSError Unit → AcceptorM Unit}
    (hok : f (.ok ()) = pure ())
    (herror : ∀ e, CostsAtMost U ((0, 1) + restCost U rest) (f (.error e))) :
    CostsAtMost U ((0, 1) + restCost U rest)
      (attempt (sendLogoutAndClose c m rest reason) >>= f) := by
  intro st hst
  rw [after_refusal c m rest reason hok]
  cases (createLogoutMessage st.config st.input.sendingTime m reason).toString with
  | error e => exact herror e st hst
  | ok raw =>
    obtain ⟨hwithin, hcost⟩ :=
      free_failEndedWrite (U := U) c ((Act.observe (.refused c raw)).apply st) hst
    obtain ⟨hwithin', hcost'⟩ := costs_suspend (.closeDelay c rest) _ hwithin
    refine ⟨hwithin', hcost'.trans (add_le_add_left ?_ _)⟩
    rwa [add_zero] at hcost

theorem costs_refuseMessage (reason : JSString) :
    CostsAtMost U ((0, 1) + restCost U rest) (refuseMessage c m rest reason) :=
  costs_refusal c m rest reason rfl fun _ => (costs_suspend _).mono le_add_self

theorem costs_refuseThrownLogon (reason : JSString) :
    CostsAtMost U ((0, 1) + restCost U rest) (refuseThrownLogon c m rest reason) :=
  costs_refusal c m rest reason rfl fun _ => .bind_of_free (free_destroy c) fun _ =>
    (costs_suspend _).mono le_add_self

theorem costs_refuseLogon (reason : JSString) :
    CostsAtMost U ((0, 1) + restCost U rest) (refuseLogon c m rest reason) :=
  costs_refusal c m rest reason rfl fun e => costs_refuseThrownLogon c m rest e

theorem costs_validateLogon :
    CostsAtMost U ((1, 10 + U) + restCost U rest) (validateLogon c m rest) := by
  have hvalidated : ∀ verdict, CostsAtMost U ((1, 10 + U) + restCost U rest)
      (suspend (.validated c m rest verdict)) := fun verdict =>
    (costs_suspend _).mono
      (add_le_add_left (Prod.mk_le_mk.mpr ⟨Nat.le_refl 1, by omega⟩) _)
  refine .get_bind fun st _ => ?_
  split
  · exact hvalidated _
  · exact .ite (fun _ => hvalidated _) fun _ => .ite (fun _ => costs_suspend _) fun _ =>
      hvalidated _

theorem costs_afterValidateCredentials :
    CostsAtMost U ((1, 9 + U) + restCost U rest) (afterValidateCredentials c m rest) := by
  have hvalidated : ∀ verdict, CostsAtMost U ((1, 9 + U) + restCost U rest)
      (suspend (.validated c m rest verdict)) := fun verdict =>
    (costs_suspend _).mono
      (add_le_add_left (Prod.mk_le_mk.mpr ⟨Nat.le_refl 1, by omega⟩) _)
  refine .get_bind fun st _ => ?_
  split
  · exact hvalidated _
  · exact .ite (fun _ => costs_suspend _) fun _ => hvalidated _

theorem costs_afterGetAllowedSenderCompIds :
    CostsAtMost U ((1, 8 + U) + restCost U rest) (afterGetAllowedSenderCompIds c m rest) := by
  refine .get_bind fun st _ => ?_
  split
  · exact costs_suspend _
  · exact .ite (fun _ => costs_suspend _) fun _ => costs_suspend _

/-- A session is created, and may have to wait for the logout of an older one. -/
theorem costs_createNewSession : CostsAtMost U (0, 2) (createNewSession c m) := by
  refine .get_bind fun st _ => .bind_of_free ?_ fun s => ?_
  · exact free_of_performs fun st => ⟨_, performs_newSession _ c rfl, by
      rintro a rfl
      rfl⟩
  · exact .bind (costs_registerSession s true) fun _ => .pure s

theorem costs_afterValidated (verdict : LogonVerdict) :
    CostsAtMost U ((1, 7 + U) + restCost U rest) (afterValidated c m rest verdict) := by
  have hrefused : ((0, 1) : ℕ × ℕ) + restCost U rest ≤ (1, 7 + U) + restCost U rest :=
    add_le_add_left (Prod.mk_le_mk.mpr ⟨Nat.zero_le 1, by omega⟩) _
  cases verdict with
  | thrown e => exact (costs_refuseThrownLogon c m rest e).mono hrefused
  | invalid reason =>
    exact (costs_refuseLogon c m rest _).mono hrefused
  | valid =>
    have hsum : ((0, 2) : ℕ × ℕ) + ((1, 5 + U) + restCost U rest) ≤
        (1, 7 + U) + restCost U rest := by
      rw [Prod.le_def]
      simp only [Prod.fst_add, Prod.snd_add]
      omega
    refine Costs.mono hsum (Costs.bind (costs_createNewSession c m) fun s => ?_)
    exact costs_suspend (.created c s m rest)

theorem costs_handleNonLogonMessage :
    CostsAtMost U ((0, 3 + U) + restCost U rest) (handleNonLogonMessage c m rest) := by
  refine .get_bind fun st _ => ?_
  split
  · refine (costs_refuseMessage c m rest _).mono ?_
    exact add_le_add_left (Prod.mk_le_mk.mpr ⟨Nat.le_refl 0, by omega⟩) _
  · exact .bind_of_free (free_observe _) fun _ => costs_handleMessage (.chunk c rest false) _ m

/-- The first message of a loop and everything behind it. -/
theorem costs_processMessages : CostsAtMost U ((1, 10 + U) + restCost U rest)
    (processMessages c (m :: rest)) := by
  have hless : ((0, 3 + U) : ℕ × ℕ) + restCost U rest ≤ (1, 10 + U) + restCost U rest :=
    add_le_add_left (Prod.mk_le_mk.mpr ⟨Nat.zero_le 1, by omega⟩) _
  unfold processMessages
  refine .ite (fun _ => ?_) fun _ => (costs_suspend _).mono le_add_self
  generalize m.toString = raw
  cases raw with
  | error e =>
    refine Costs.mono zero_le ?_
    exact .bind_of_free (free_observe _) fun _ => free_destroy c
  | ok _ =>
    exact .bind_of_free (free_observe _) fun _ => .ite (fun _ => costs_validateLogon c m rest)
      fun _ => (costs_handleNonLogonMessage c m rest).mono hless

end Messages

/-! ## Going on with a task -/

/-- One step less. -/
theorem add_step_le {a b k l : ℕ} (n : ℕ × ℕ) (hab : a ≤ b) (hkl : k + 1 ≤ l) :
    (a, k) + n + (0, 1) ≤ (b, l) + n := by
  rw [Prod.le_def]
  simp only [Prod.fst_add, Prod.snd_add]
  omega

theorem add_step_le_restCost (m : Message) (rest : List Message) :
    (1, 10 + U) + restCost U rest + (0, 1) ≤ restCost U (m :: rest) := by
  rw [Prod.le_def]
  simp only [restCost, Prod.fst_add, Prod.snd_add, List.length_cons, Nat.add_mul]
  omega

/-- Going on with a task costs less than the task. Only a Logon that has created a session is
left out, which adds handlers. -/
theorem costs_resume (hframe : ∀ c s m rest, frame ≠ .created c s m rest) :
    ∃ n, n + (0, 1) ≤ frame.cost U ∧ CostsAtMost U n (resume frame) := by
  cases frame with
  | nextMessage c rest =>
    cases rest with
    | nil => exact ⟨0, by simp [Frame.cost, restCost], .pure ()⟩
    | cons m rest => exact ⟨_, add_step_le_restCost m rest, costs_processMessages c m rest⟩
  | validateCredentials c m rest =>
    exact ⟨_, add_step_le _ le_rfl (by omega), costs_afterValidateCredentials c m rest⟩
  | getAllowedSenderCompIds c m rest =>
    exact ⟨_, add_step_le _ le_rfl (by omega), costs_afterGetAllowedSenderCompIds c m rest⟩
  | validated c m rest verdict =>
    exact ⟨_, add_step_le _ le_rfl (by omega), costs_afterValidated c m rest verdict⟩
  | closeDelay c rest =>
    exact ⟨_, (add_comm _ _).le, .bind_of_free (free_destroy c) fun _ => costs_suspend _⟩
  | created c s m rest => exact absurd rfl (hframe c s m rest)
  | handlersSet c s m rest =>
    refine ⟨_, add_step_le _ le_rfl (by omega), .bind_of_free ?_ fun _ =>
      costs_handleMessage (.chunk c rest true) s m⟩
    exact free_modify (fun _ => rfl) fun _ _ => rfl
  | logonResponse origin s m error =>
    refine ⟨(0, 2 + U) + origin.cost U, add_step_le _ le_rfl (by omega), ?_⟩
    refine .bind_of_free (free_sendError error) fun error' => .bind_of_free
      (free_afterLogonResponse s error').attempt fun r => ?_
    cases r with
    | ok _ => exact costs_suspend _
    | error _ =>
      exact .bind_of_free (free_setState s _) fun _ =>
        (costs_settleMessage origin _).mono le_add_self
  | testRequestReply origin s m error =>
    refine ⟨(0, 2 + U) + origin.cost U, add_step_le _ le_rfl (by omega), ?_⟩
    refine .bind_of_free (free_sendError error) fun error' => ?_
    cases error' with
    | none => exact costs_suspend _
    | some _ => exact (costs_settleMessage origin _).mono le_add_self
  | messageHandlers origin s m =>
    exact ⟨_, add_step_le _ le_rfl (by omega), costs_runMessageHandlers origin s m 0⟩
  | handlerPending origin s m next =>
    refine ⟨(0, U - next) + origin.cost U, add_step_le _ le_rfl (by omega),
      .get_bind fun st _ => ?_⟩
    split
    · exact costs_runMessageHandlers origin s m next
    · exact (costs_settleMessage origin _).mono le_add_self
  | logoutSent s caller error =>
    refine ⟨(0, caller.cost), ?_, .bind_of_free (free_afterLogoutSent s).attempt fun r =>
      costs_settleLogout caller r⟩
    exact (add_comm ((0, caller.cost) : ℕ × ℕ) (0, 1)).le
  | registration s dropped =>
    exact ⟨0, le_rfl, free_finishRegistration s dropped⟩
  | allClosed k stopping =>
    refine ⟨(0, 1), le_rfl, .bind_of_free (free_modify (fun _ => rfl) fun _ _ => rfl) fun _ =>
      .ite (fun _ => costs_suspend _) fun _ => .mono zero_le (.pure ())⟩
  | closeAllSockets =>
    refine ⟨0, le_rfl, .get_bind fun st _ => .bind_of_free (.forEach _ free_destroy) fun _ => ?_⟩
    exact free_modify (fun _ => rfl) fun _ _ => rfl

/-- A task that is taken is no longer counted. -/
theorem cost_take {i : ℕ} (hf : st.tasks[i]? = some frame) :
    ((Act.take i).apply st).cost U + frame.cost U = st.cost U := by
  obtain ⟨hi, rfl⟩ := List.getElem?_eq_some_iff.mp hf
  have hperm := (List.getElem_cons_eraseIdx_perm hi).map (Frame.cost U)
  have hsum := hperm.sum_eq
  rw [List.map_cons, List.sum_cons, add_comm] at hsum
  exact hsum

/-- A step that goes on with a task costs one step, and adds no handlers in all cases but one. -/
theorem step_resume (hstep : st.step e = some st') {i : ℕ} (hevent : e.event = .resume i)
    (hf : st.tasks[i]? = some frame) (hframe : ∀ c s m rest, frame ≠ .created c s m rest)
    (hU : HandlersWithin U st) : st'.cost U + (0, 1) ≤ st.cost U ∧ HandlersWithin U st' := by
  obtain ⟨n, hn, hcosts⟩ := costs_resume (U := U) hframe
  have hafter := after_resume_step hstep hevent hf
  obtain ⟨hwithin, hcost⟩ := hcosts ((Act.take i).apply (st.meets e)) hU
  rw [hafter] at hwithin hcost
  have htake : ((Act.take i).apply (st.meets e)).cost U + frame.cost U = st.cost U := cost_take hf
  refine ⟨?_, hwithin⟩
  calc st'.cost U + (0, 1)
      ≤ ((Act.take i).apply (st.meets e)).cost U + n + (0, 1) := add_le_add_left hcost _
    _ = ((Act.take i).apply (st.meets e)).cost U + (n + (0, 1)) := add_assoc ..
    _ ≤ ((Act.take i).apply (st.meets e)).cost U + frame.cost U := add_le_add_right hn _
    _ = st.cost U := htake

theorem length_withHandlers (x : Session) (metadata : FixMetadata) :
    (x.withHandlers metadata).handlers.message.length ≤ x.handlers.message.length + 1 := by
  have hkeeps : ∀ (h : Handlers) (kind : HandlerKind) (handler : Option ℕ),
      (h.addIf kind handler).message = h.message := by
    intro h kind handler
    cases handler with
    | none => rfl
    | some handler =>
      change (h.add kind handler).message = h.message
      unfold Handlers.add
      split <;> rfl
  unfold Session.withHandlers
  cases metadata.onMessage with
  | none => simp [hkeeps]
  | some _ => simp [hkeeps]

theorem HandlersWithin.addHandlers (h : HandlersWithin U st) (s : ℕ) (metadata : FixMetadata) :
    HandlersWithin (U + 1) ((Act.addHandlers s metadata).apply st) := by
  intro x
  have hU := h x
  by_cases hx : x = s
  · subst hx
    have hlength := length_withHandlers (st.sessions x) metadata
    simp only [Act.apply, AcceptorState.withSessionAs, Function.update_self]
    omega
  · simp only [Act.apply, AcceptorState.withSessionAs, Function.update_of_ne hx]
    omega

/-- The handlers of the application are added to a session. -/
theorem handlersWithin_setup {B : ℕ} (s : ℕ) (metadata : List FixMetadata)
    (h : HandlersWithin B st) : HandlersWithin (B + metadata.length)
      ((forEach metadata (registerSessionHandlers s)).after st) := by
  induction metadata generalizing st B with
  | nil => exact h
  | cons added metadata ih =>
    have hwithin := ih (h.addHandlers s added)
    rw [List.length_cons, show B + (metadata.length + 1) = B + 1 + metadata.length by omega]
    exact hwithin

/-- What going on after `createNewSession` does. -/
theorem after_resume_created (c s : ℕ) (m : Message) (rest : List Message) :
    (resume (.created c s m rest)).after st = (Act.suspend (.handlersSet c s m rest)).apply
      ((forEach st.config.metadata (registerSessionHandlers s)).after st) := by
  have hno : NoThrow (forEach st.config.metadata (registerSessionHandlers s)) :=
    .forEach _ fun _ => .modify _
  obtain ⟨u, hu⟩ := hno st
  have hsetup : (setupSessionHandlers s).result st =
      (.ok u, (forEach st.config.metadata (registerSessionHandlers s)).after st) := by
    unfold setupSessionHandlers
    rw [result_bind, result_get]
    exact Prod.ext hu rfl
  exact after_bind_of_ok hsetup

/-- The step in which a session gets its handlers. -/
theorem step_created (hstep : st.step e = some st') {i c s : ℕ} {m : Message}
    (hevent : e.event = .resume i) (hf : st.tasks[i]? = some (.created c s m rest)) :
    st'.cost U + (1, 1) = st.cost U ∧ ∀ B, HandlersWithin B st →
      HandlersWithin (B + st.config.metadata.length) st' := by
  have hafter := after_resume_step hstep hevent hf
  rw [after_resume_created] at hafter
  set st1 := (Act.take i).apply (st.meets e) with hst1
  have hmetadata : st1.config = st.config := rfl
  rw [hmetadata] at hafter
  subst hafter
  refine ⟨?_, fun B hB => handlersWithin_setup s _ hB⟩
  have hkeeps : Exec.Keeps (fun st2 => st2.tasks = st1.tasks)
      (forEach st.config.metadata (registerSessionHandlers s)) :=
    .forEach _ fun _ => .modify fun _ => id
  have htasks := hkeeps.after (s := st1) rfl
  have htaken : st1.cost U + Frame.cost U (.created c s m rest) = st.cost U := cost_take hf
  rw [← htaken]
  simp only [AcceptorState.cost, Act.apply, htasks, List.map_append, List.map_cons, List.map_nil,
    List.sum_append, List.sum_cons, List.sum_nil, Frame.cost]
  rw [Prod.ext_iff]
  simp only [Prod.fst_add, Prod.snd_add, Prod.fst_zero, Prod.snd_zero]
  omega

theorem free_callNextListener : CostsAtMost U 0 callNextListener := by
  refine free_of_performs fun st => ⟨_, performs_callNextListener fun _ => id, fun a ha => ?_⟩
  unfold nextListenerActs at ha
  split at ha
  · cases ha
  · obtain rfl := Set.mem_singleton_iff.mp ha
    rfl
  · next c listener listeners hclosing =>
    rcases ha with ha | rfl | rfl | ⟨_, rfl⟩
    · cases listener with
      | acceptor =>
        rcases ha with rfl | ⟨_, _, _, ha⟩
        · rfl
        · exact free_tearDown ha
      | session s => exact free_tearDown ha
    · rfl
    · rfl
    · rfl

/-- A call of a `close` listener leaves less of the event. -/
theorem closingCost_step (hstep : st.step e = some st') (hevent : e.event = .nextListener) :
    closingCost st'.closing < closingCost st.closing := by
  have hafter := nextListener_step hstep hevent
  have henabled := step_enabled hstep
  rw [hevent] at henabled
  cases hclosing : st.closing with
  | none =>
    simp [AcceptorState.enabled, hclosing] at henabled
  | some closing =>
    have hmeets : (st.meets e).closing = some closing := hclosing
    obtain ⟨c, _ | ⟨l, ls⟩⟩ := closing
    · have hnone : st'.closing = none := by
        rw [← hafter]
        unfold callNextListener
        rw [after_bind_of_ok (result_get _), hmeets]
        rfl
      rw [hnone]
      exact Nat.zero_lt_succ _
    · obtain ⟨st1, hst1⟩ : ∃ st1, (Act.setClosing (some (c, ls))).apply (st.meets e) = st1 :=
        ⟨_, rfl⟩
      have hkept : ((callCloseListener c l).after st1).closing = st1.closing :=
        closing_callCloseListener c l
      rw [after_callNextListener hmeets hst1] at hafter
      rcases hr : (callCloseListener c l).result st1 with ⟨err | _, st2⟩
      · rw [hr] at hafter
        rw [← hafter]
        exact Nat.zero_lt_succ _
      · rw [hr] at hafter
        rw [after_of_result hr] at hkept
        have hclosing' : st'.closing = some (c, ls) := by
          rw [← hafter, hkept, ← hst1]
          rfl
        rw [hclosing']
        simp [closingCost]

/-! ## Open sockets -/

theorem openCost_withSocketAs {c : ℕ} (hc : c < st.nextSocket) (f : Connection → Connection) :
    (st.withSocketAs c f).openCost + (st.sockets c).closeCost =
      st.openCost + (f (st.sockets c)).closeCost := by
  have hmem : c ∈ Finset.range st.nextSocket := Finset.mem_range.mpr hc
  have hself : (st.withSocketAs c f).sockets c = f (st.sockets c) := Function.update_self ..
  have hothers : ∑ x ∈ (Finset.range st.nextSocket).erase c,
      ((st.withSocketAs c f).sockets x).closeCost =
        ∑ x ∈ (Finset.range st.nextSocket).erase c, (st.sockets x).closeCost := by
    refine Finset.sum_congr rfl fun x hx => congrArg Connection.closeCost ?_
    exact Function.update_of_ne (Finset.ne_of_mem_erase hx) _ _
  have hnew : (st.withSocketAs c f).openCost = _ := (Finset.add_sum_erase _ _ hmem).symm
  have hold : st.openCost = _ := (Finset.add_sum_erase _ _ hmem).symm
  rw [hnew, hold, hself, hothers]
  omega

/-- A change of one socket costs no more than it costs the socket. -/
theorem openCost_withSocketAs_le {k : ℕ} {f : Connection → Connection} (c : ℕ)
    (hf : ∀ x, (f x).closeCost ≤ x.closeCost + k) :
    (st.withSocketAs c f).openCost ≤ st.openCost + k := by
  by_cases hc : c < st.nextSocket
  · have hsum := openCost_withSocketAs hc f
    have hle := hf (st.sockets c)
    omega
  · refine (Finset.sum_congr rfl fun x hx => ?_).le.trans (Nat.le_add_right _ _)
    have hne : x ≠ c := fun heq => hc (heq ▸ Finset.mem_range.mp hx)
    exact congrArg Connection.closeCost (Function.update_of_ne hne _ _)

/-- An act that adds to what is left of the sockets. -/
def Act.opens : Act → Bool
  | .listen .. | .connect _ => true
  | _ => false

theorem openCost_apply {a : Act} (ha : a.opens = false) :
    (a.apply st).openCost ≤ st.openCost := by
  cases hchanges : a.changesSockets with
  | false =>
    have hsame := sameSockets_apply hchanges st
    unfold AcceptorState.openCost
    rw [hsame.sockets, hsame.nextSocket]
  | true =>
    cases a with
    | strip s =>
      refine openCost_withSocketAs_le (k := 0) (f := Connection.removeAllListeners) _ fun x => ?_
      unfold Connection.closeCost Connection.removeAllListeners
      split <;> simp
    | destroy c =>
      exact openCost_withSocketAs_le (k := 0) (f := fun x => { x with destroyed := true }) c
        fun _ => le_rfl
    | endSocket s =>
      exact openCost_withSocketAs_le (k := 0) (f := fun x => { x with ended := true }) _
        fun _ => le_rfl
    | close c =>
      exact openCost_withSocketAs_le (k := 0) (f := fun x => { x with closed := true }) c
        fun _ => Nat.zero_le _
    | listen | connect => cases ha
    | forget | setClosing | shut => exact le_rfl
    | _ => cases hchanges

theorem opens_settleMessage {a : Act} (ha : a ∈ settleMessageActs origin) : a.opens = false := by
  cases origin with
  | user => cases ha
  | chunk c rest logon => rcases ha with rfl | rfl <;> rfl

theorem opens_send {a : Act} {s : ℕ} (ha : a ∈ sendActs s) : a.opens = false := by
  rcases ha with rfl | ⟨_, _, rfl⟩ <;> rfl

/-- A session that handles a message adds no listener to its socket. -/
theorem opens_handleMessage {a : Act} {s : ℕ} {m : Message}
    (ha : a ∈ handleMessageActs st origin s m) : a.opens = false := by
  unfold handleMessageActs at ha
  split at ha
  · rcases ha with ha | rfl | rfl | ⟨_, rfl⟩
    · exact opens_send ha
    all_goals rfl
  · split at ha
    · rcases ha with (((((rfl | rfl) | rfl | rfl) | rfl) | ha) | ha) | rfl
      on_goal 6 => rcases ha with (rfl | rfl | rfl | ⟨_, rfl⟩) | ⟨_, rfl | rfl⟩ <;> rfl
      on_goal 6 => exact opens_settleMessage ha
      all_goals rfl
    · split at ha
      · rcases ha with ha | ⟨_, rfl⟩
        · exact opens_send ha
        · rfl
      · rcases ha with ha | rfl | ⟨_, rfl⟩ | ⟨_, rfl⟩
        · exact opens_settleMessage ha
        all_goals rfl

/-- Only a Logon that goes on with its session, and a new connection, open anything. -/
theorem opens_of_causedBy {a : Act} (ha : a.CausedBy (st.meets e) e.event)
    (hlisten : ∀ c s m rest, ¬ (st.meets e).GoesOn e.event (.handlersSet c s m rest))
    (hconnect : ∀ r, e.event ≠ .connect r) : a.opens = false := by
  cases a with
  | listen c s =>
    obtain ⟨m, rest, hgoes⟩ := ha
    exact absurd hgoes (hlisten c s m rest)
  | connect r => exact absurd ha (hconnect r)
  | _ => rfl

theorem openCost_step (hstep : st.step e = some st')
    (hlisten : ∀ c s m rest, ¬ (st.meets e).GoesOn e.event (.handlersSet c s m rest))
    (hconnect : ∀ r, e.event ≠ .connect r) : st'.openCost ≤ st.openCost :=
  step_keeps hstep (P := fun st1 => st1.openCost ≤ st.openCost) le_rfl fun _ _ _ ha h1 =>
    (openCost_apply (opens_of_causedBy ha hlisten hconnect)).trans h1

/-- Going on with a task adds at most one listener. -/
theorem openCost_resume (hstep : st.step e = some st') {i : ℕ} (hevent : e.event = .resume i) :
    st'.openCost ≤ st.openCost + 1 := by
  obtain ⟨frame, hf⟩ := exists_task_of_step hstep hevent
  by_cases hframe : ∀ c s m rest, frame ≠ .handlersSet c s m rest
  · refine (openCost_step hstep ?_ (by simp [hevent])).trans (Nat.le_succ _)
    rintro c s m rest ⟨j, hj, hgoes⟩
    obtain rfl := Event.resume.inj (hevent.symm.trans hj)
    exact hframe c s m rest (Option.some.inj (hf.symm.trans hgoes))
  · push Not at hframe
    obtain ⟨c, s, m, rest, rfl⟩ := hframe
    obtain ⟨st1, hst1⟩ : ∃ st1, (Act.listen c s).apply ((Act.take i).apply (st.meets e)) = st1 :=
      ⟨_, rfl⟩
    have hlistened : ((Act.listen c s).apply ((Act.take i).apply (st.meets e))).openCost ≤
        ((Act.take i).apply (st.meets e)).openCost + 1 := by
      refine openCost_withSocketAs_le c fun x => ?_
      unfold Connection.closeCost
      split
      · exact Nat.zero_le _
      · rw [List.length_append]
        rfl
    rw [hst1] at hlistened
    have hhandled : (handleMessage (.chunk c rest true) s m).after st1 = st' := by
      rw [← after_resume_step hstep hevent hf, ← hst1]
      rfl
    rw [← hhandled]
    have hperforms : Performs (handleMessageActs st1 (.chunk c rest true) s m) st1
        (handleMessage (.chunk c rest true) s m) := performs_handleMessage fun _ => id
    exact hperforms.keeps (P := fun st2 => st2.openCost ≤ st.openCost + 1)
      (fun st2 a _ ha h2 => (openCost_apply (opens_handleMessage ha)).trans h2) hlistened

/-- A socket that closes is left with the calls of its listeners. -/
theorem openCost_closed {c : ℕ} (hc : c < st.nextSocket) (hopen : (st.sockets c).closed = false) :
    closingCost ((Act.close c).apply st).closing + ((Act.close c).apply st).openCost <
      st.openCost := by
  have hsum : ((Act.close c).apply st).openCost + (st.sockets c).closeCost = st.openCost + 0 :=
    openCost_withSocketAs hc fun x => { x with closed := true }
  have hcost : (st.sockets c).closeCost = 2 + (st.sockets c).closeListeners.length :=
    if_neg (by simp [hopen])
  have hclosing : closingCost ((Act.close c).apply st).closing =
      1 + (st.sockets c).closeListeners.length := rfl
  omega

theorem close_step (hstep : st.step e = some st') {c : ℕ} (hevent : e.event = .close c) :
    (Act.close c).apply (st.meets e) = st' := by
  rw [← after_of_step hstep, hevent]
  exact (after_beginClose c).symm

theorem openCost_close (hstep : st.step e = some st') {c : ℕ} (hevent : e.event = .close c) :
    closingCost st'.closing + st'.openCost < closingCost st.closing + st.openCost := by
  have henabled := step_enabled hstep
  rw [hevent] at henabled
  simp only [AcceptorState.enabled, Bool.and_eq_true, decide_eq_true_eq,
    Bool.not_eq_true'] at henabled
  obtain ⟨-, ⟨-, hc⟩, hopen⟩ := henabled
  have hclosed : _ < (st.meets e).openCost := openCost_closed hc hopen
  rw [close_step hstep hevent] at hclosed
  exact hclosed.trans_le (Nat.le_add_left _ _)

/-! ## Nearer to rest -/

/-- A task that goes on may use up a Logon, whose handlers count from then on. -/
theorem steps_lt_resume (hstep : st.step e = some st') {i : ℕ} (hevent : e.event = .resume i)
    (hfits : Fits U st) : Fits U st' ∧ st'.steps U < st.steps U := by
  obtain ⟨B, hB, hle⟩ := hfits
  have hU := hB.mono ((Nat.le_add_right _ _).trans hle)
  have hmetadata : st'.config.metadata.length = st.config.metadata.length := by
    rw [config_step hstep]
  have hclosing : st'.closing = st.closing := by
    have hnone := closing_eq_none (step_enabled hstep) (by simp [hevent])
    rw [hnone, closing_step hstep (by simp [hevent]) (by simp [hevent])]
  have hopen := openCost_resume hstep hevent
  obtain ⟨frame, hf⟩ := exists_task_of_step hstep hevent
  unfold AcceptorState.steps
  rw [hclosing]
  by_cases hframe : ∀ c s m rest, frame ≠ .created c s m rest
  · obtain ⟨hcost, -⟩ := step_resume hstep hevent hf hframe hU
    obtain ⟨-, hwithin⟩ := step_resume hstep hevent hf hframe hB
    obtain ⟨hlogons, hsteps⟩ := Prod.le_def.mp hcost
    simp only [Prod.fst_add, Prod.snd_add, Nat.add_zero] at hlogons hsteps
    refine ⟨⟨B, hwithin, ?_⟩, by omega⟩
    rw [hmetadata]
    exact (Nat.add_le_add_left (Nat.mul_le_mul_left _ hlogons) B).trans hle
  · push Not at hframe
    obtain ⟨c, s, m, rest, rfl⟩ := hframe
    obtain ⟨hcost, hwithin⟩ := step_created (U := U) hstep hevent hf
    rw [Prod.ext_iff] at hcost
    obtain ⟨hlogons, hsteps⟩ := hcost
    simp only [Prod.fst_add, Prod.snd_add] at hlogons hsteps
    refine ⟨⟨_, hwithin B hB, ?_⟩, by omega⟩
    rw [hmetadata]
    rw [← hlogons, Nat.mul_add] at hle
    omega

theorem steps_lt_nextListener (hstep : st.step e = some st') (hevent : e.event = .nextListener)
    (hfits : Fits U st) : Fits U st' ∧ st'.steps U < st.steps U := by
  obtain ⟨B, hB, hle⟩ := hfits
  have hU := hB.mono ((Nat.le_add_right _ _).trans hle)
  have hafter := nextListener_step hstep hevent
  obtain ⟨-, hcost⟩ := free_callNextListener (U := U) (st.meets e) hU
  obtain ⟨hwithin, -⟩ := free_callNextListener (U := B) (st.meets e) hB
  rw [hafter, add_zero] at hcost
  rw [hafter] at hwithin
  obtain ⟨hlogons, hsteps⟩ := Prod.le_def.mp hcost
  have hclosing := closingCost_step hstep hevent
  have hopen := openCost_step hstep (by simp [hevent, AcceptorState.GoesOn]) (by simp [hevent])
  have hsame : ((st.meets e).cost U).2 = (st.cost U).2 := rfl
  unfold AcceptorState.steps
  refine ⟨⟨B, hwithin, ?_⟩, by omega⟩
  rw [config_step hstep]
  exact (Nat.add_le_add_left (Nat.mul_le_mul_left _ hlogons) B).trans hle

theorem steps_lt_close (hstep : st.step e = some st') {c : ℕ} (hevent : e.event = .close c)
    (hfits : Fits U st) : Fits U st' ∧ st'.steps U < st.steps U := by
  obtain ⟨B, hB, hle⟩ := hfits
  have hafter := close_step hstep hevent
  have hcost : ∀ V, st'.cost V = st.cost V := fun V => by
    rw [← hafter]
    rfl
  have hopen := openCost_close hstep hevent
  unfold AcceptorState.steps
  rw [hcost]
  refine ⟨⟨B, ?_, by rwa [config_step hstep, hcost]⟩, by omega⟩
  rw [← hafter]
  exact hB

/-- Every step in which nothing new arrives brings the acceptor nearer to rest. -/
theorem steps_lt_of_step (hstep : st.step e = some st') (hwinds : e.event.windsDown = true)
    (hfits : Fits U st) : Fits U st' ∧ st'.steps U < st.steps U := by
  cases hevent : e.event with
  | resume i => exact steps_lt_resume hstep hevent hfits
  | nextListener => exact steps_lt_nextListener hstep hevent hfits
  | close c => exact steps_lt_close hstep hevent hfits
  | _ =>
    rw [hevent] at hwinds
    cases hwinds

/-! ## Coming to rest -/

/-- As long as anything is left, the acceptor can go on. -/
theorem exists_step_of_not_settled (h : ¬ st.Settled) :
    ∃ event, event.goesOn = true ∧ ∀ input, (st.step ⟨event, input⟩).isSome = true := by
  have hstep : ∀ {event : Event}, st.enabled event = true →
      ∀ input, (st.step ⟨event, input⟩).isSome = true := by
    intro event henabled input
    rw [AcceptorState.step, if_pos henabled]
    rfl
  cases hclosing : st.closing with
  | some closing =>
    exact ⟨.nextListener, rfl, hstep (by simp [AcceptorState.enabled, hclosing])⟩
  | none =>
    have htasks : st.tasks ≠ [] := fun hnil => h ⟨hnil, hclosing⟩
    by_cases hquiet : st.quiet = true
    · obtain ⟨frame, frames, hcons⟩ := List.exists_cons_of_ne_nil htasks
      refine ⟨.resume 0, rfl, hstep ?_⟩
      simp [AcceptorState.enabled, AcceptorState.canResume, hclosing, hcons, hquiet]
    · -- a task that is ready goes on whatever the others wait for
      unfold AcceptorState.quiet at hquiet
      rw [List.all_eq_true] at hquiet
      push Not at hquiet
      obtain ⟨frame, hmem, hready⟩ := hquiet
      obtain ⟨i, hi, rfl⟩ := List.getElem_of_mem hmem
      refine ⟨.resume i, rfl, hstep ?_⟩
      have hf : st.tasks[i]? = some st.tasks[i] := List.getElem?_eq_getElem hi
      have hwait : st.tasks[i].wait = .ready := by simpa using hready
      simp [AcceptorState.enabled, AcceptorState.canResume, hclosing, hf, hwait]

/-- What is settled stays so until something happens. -/
theorem Settled.step_eq_none (h : st.Settled) (hgoes : e.event.goesOn = true) :
    st.step e = none := by
  rw [AcceptorState.step, if_neg]
  cases hevent : e.event with
  | resume i => simp [AcceptorState.enabled, AcceptorState.canResume, h.tasks]
  | nextListener => simp [AcceptorState.enabled, h.closing]
  | _ =>
    rw [hevent] at hgoes
    cases hgoes

/-- How many Logons the tasks may find does not depend on the handlers. -/
theorem logons_eq (U V : ℕ) (st : AcceptorState) : (st.cost U).1 = (st.cost V).1 := by
  have hframe : ∀ frame : Frame, (frame.cost U).1 = (frame.cost V).1 := by
    have horigin : ∀ origin : Origin, (origin.cost U).1 = (origin.cost V).1 := by
      rintro (_ | _) <;> rfl
    intro frame
    cases frame <;> simp only [Frame.cost, restCost, Prod.fst_add, horigin]
  unfold AcceptorState.cost
  induction st.tasks with
  | nil => rfl
  | cons frame frames ih =>
    simp only [List.map_cons, List.sum_cons, Prod.fst_add, ih, hframe]

/-- In every reached state the number of message handlers is bounded. -/
theorem exists_handlersWithin (h : acceptor.Reached guard st) : ∃ B, HandlersWithin B st := by
  induction h with
  | init hinit =>
    obtain ⟨config, rfl⟩ := hinit
    exact ⟨0, fun _ => Nat.le_refl 0⟩
  | @step st st' e _ _ hstep ih =>
    refine step_keeps hstep (P := fun st1 => ∃ B, HandlersWithin B st1) ih fun st1 a _ _ h1 => ?_
    obtain ⟨B, hB⟩ := h1
    by_cases ha : ∀ s metadata, a ≠ .addHandlers s metadata
    · exact ⟨B, hB.apply ha⟩
    · push Not at ha
      obtain ⟨s, metadata, rfl⟩ := ha
      exact ⟨B + 1, hB.addHandlers s metadata⟩

theorem exists_fits (h : acceptor.Reached guard st) : ∃ U, Fits U st := by
  obtain ⟨B, hB⟩ := exists_handlersWithin h
  refine ⟨B + st.config.metadata.length * (st.cost 0).1, B, hB, ?_⟩
  rw [logons_eq _ 0]

/-- A run in which nothing new arrives is not longer than a bound that its first state sets. -/
theorem exists_length_le (h : acceptor.Reached guard st) : ∃ n, ∀ es st',
    acceptor.Guarded (fun _ e => e.event.windsDown = true) st es → acceptor.exec st es = some st' →
      es.length ≤ n := by
  obtain ⟨U, hU⟩ := exists_fits h
  refine ⟨st.steps U, fun es st' hes hexec => ?_⟩
  have hlength := System.length_add_le (S := acceptor) (I := Fits U)
    (fun st e st' hfits hwinds hstep => steps_lt_of_step hstep hwinds hfits) hes hU hexec
  omega

/-- An acceptor that cannot go on is settled. -/
theorem settled_iff : st.Settled ↔ ∀ e : Step, e.event.goesOn = true → st.step e = none := by
  refine ⟨fun hsettled e hgoes => Settled.step_eq_none hsettled hgoes, fun hnone => ?_⟩
  by_contra hsettled
  obtain ⟨event, hgoes, hstep⟩ := exists_step_of_not_settled hsettled
  have hsome := hstep .calm
  rw [hnone ⟨event, .calm⟩ hgoes] at hsome
  cases hsome

theorem windsDown_of_goesOn {event : Event} (h : event.goesOn = true) :
    event.windsDown = true := by
  cases event with
  | resume | nextListener => rfl
  | _ => cases h

/-- Nothing more happens when all is settled and all sockets are closed. -/
theorem settled_and_allClosed_iff : st.Settled ∧ st.AllClosed ↔
    ∀ e : Step, e.event.windsDown = true → st.step e = none := by
  constructor
  · rintro ⟨hsettled, hclosed⟩ e hwinds
    cases hevent : e.event with
    | close c =>
      rw [AcceptorState.step, if_neg]
      rw [hevent]
      simp only [AcceptorState.enabled, Bool.and_eq_true, decide_eq_true_eq, Bool.not_eq_true']
      rintro ⟨-, ⟨-, hc⟩, hopen⟩
      rw [hclosed c hc] at hopen
      cases hopen
    | resume | nextListener => exact Settled.step_eq_none hsettled (by rw [hevent]; rfl)
    | _ =>
      rw [hevent] at hwinds
      cases hwinds
  · intro hnone
    have hsettled : st.Settled :=
      settled_iff.mpr fun e hgoes => hnone e (windsDown_of_goesOn hgoes)
    refine ⟨hsettled, fun c hc => ?_⟩
    by_contra hopen
    have hstep := hnone ⟨.close c, .calm⟩ rfl
    rw [AcceptorState.step, if_pos] at hstep
    · cases hstep
    · simp [AcceptorState.enabled, AcceptorState.quiet, hsettled.tasks, hsettled.closing, hc,
        Bool.eq_false_iff.mpr hopen]

/-- From every reached state the acceptor comes to rest: the runs in which it only goes on with
its tasks, sockets close and their `close` listeners are called have a bounded length, and one
that cannot be continued has left nothing to go on with, and no socket open. -/
theorem settles (h : acceptor.Reached guard st) : ∃ n, ∀ es st',
    acceptor.Guarded (fun _ e => e.event.windsDown = true) st es → acceptor.exec st es = some st' →
      es.length ≤ n ∧ ((∀ e : Step, e.event.windsDown = true → st'.step e = none) ↔
        st'.Settled ∧ st'.AllClosed) := by
  obtain ⟨n, hn⟩ := exists_length_le h
  exact ⟨n, fun es st' hes hexec => ⟨hn es st' hes hexec, settled_and_allClosed_iff.symm⟩⟩

/-- A Logon has arrived, and its processing goes on. -/
theorem settles_logon : ∃ st ∈ acceptor.exec (broker 1) [(Event.connect (js "client:1")).calmly,
    (Event.data 0 (logonBytes (js "CLIENT"))).calmly], st.tasks.length = 1 ∧
      ∃ n, ∀ es st', acceptor.Guarded (fun _ e => e.event.windsDown = true) st es →
        acceptor.exec st es = some st' → es.length ≤ n ∧
          ((∀ e : Step, e.event.windsDown = true → st'.step e = none) ↔
            st'.Settled ∧ st'.AllClosed) := by
  have hrun : ∃ st ∈ acceptor.exec (broker 1) [(Event.connect (js "client:1")).calmly,
      (Event.data 0 (logonBytes (js "CLIENT"))).calmly], st.tasks.length = 1 := by decide +kernel
  obtain ⟨st, hst, htasks⟩ := hrun
  exact ⟨st, hst, htasks, settles (System.Reached.of_exec ⟨_, rfl⟩ hst)⟩

end NestQuickfix.Acceptor
