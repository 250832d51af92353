import NestQuickfix.Acceptor.Refusals
import NestQuickfix.Acceptor.Routine
import NestQuickfix.Acceptor.TearDowns

/-!
# Errors that nobody handles

Most code of the acceptor runs under a handler that logs what is thrown. An error that
escapes ends the process, so the steps in which one can escape are listed here: a socket
reports an error after a session has taken its listeners away, or a refusal is written to it
after the session has ended it; the `close` listener of a session runs user code that throws;
a Logon is accepted when no session can be stored; and a promise rejects that a handler has
returned to nobody. Runs go on behind such a step, as in a process that handles these errors.
-/

namespace NestQuickfix.Acceptor

open Lib Lib.Exec

/-- An error that is neither caught nor handed to a caller. -/
def Observation.escapes : Observation → Bool
  | .uncaught _ | .unhandled .. | .rejected .. => true
  | _ => false

/-- What the first of the next `n` calls of user code that throws does throw. -/
def Input.firstThrown (input : Input) (n : ℕ) : Option JSError :=
  (input.thrown.take n).findSome? id

namespace AcceptorState

/-- The errors that have escaped. -/
def escaped (st : AcceptorState) : List Observation := st.trace.filter Observation.escapes

/-- How the registration of a session fails when nobody waits for it. -/
def rejection (st : AcceptorState) (s : ℕ) : List Observation :=
  if st.limitReached then
    [.unhandled s (js "Maximum number of sessions (" ++ natText st.config.maxSessions ++
      js ") reached")]
  else []

/-- The error that a refusal lets escape: its write fails, and nobody listens for errors. -/
def refusalLeak (st : AcceptorState) (c : ℕ) (m : Message) : List Observation :=
  if Refusable st.config m ∧ (st.sockets c).failsWrite = true ∧
      (st.sockets c).errorListener = false then
    [.uncaught (js "write after end")]
  else []

/-- The error that the loop over messages lets escape with the first of them. -/
def loopLeak (st : AcceptorState) (c : ℕ) : List Message → List Observation
  | [] => []
  | m :: _ =>
    if routable m = true ∧ st.registry.get? (buildSessionId m) = none then st.refusalLeak c m
    else []

/-- The errors that going on with a task lets escape. -/
def leaks (st : AcceptorState) : Frame → List Observation
  | .nextMessage c rest => st.loopLeak c rest
  | .validated c m _ verdict =>
    match verdict with
    | .valid => if st.registry.has (buildSessionId m) then [] else st.rejection st.nextSession
    | .thrown _ | .invalid _ => st.refusalLeak c m
  | .registration s true => st.rejection s
  | _ => []

/-- The errors that a step lets escape. -/
def escapes (st : AcceptorState) (e : Step) : List Observation :=
  match e.event with
  | .data c data => if (st.sockets c).dataListener then st.loopLeak c (processData data) else []
  | .socketError c err => if (st.sockets c).errorListener then [] else [.uncaught err]
  | .nextListener =>
    match st.closing with
    | some (_, .session s :: _) =>
      ((e.input.firstThrown (st.disconnectCalls s)).map Observation.uncaught).toList
    | _ => []
  | .resume i => (st.tasks[i]?).elim [] st.leaks
  | .reject s err => [.rejected s err]
  | _ => []

end AcceptorState

/-- An acceptor with the record of the errors that should have escaped. -/
abbrev escapingAcceptor : System (AcceptorState × List Observation) Step :=
  acceptor.recorded AcceptorState.escapes

variable {guard : AcceptorState → Step → Prop} {st st' : AcceptorState} {e : Step} {a : Act}
  {s c n k : ℕ} {ls : List CloseListener} {α β : Type}

/-! ## What is thrown -/

theorem Input.firstThrown_add (input : Input) (n k : ℕ) : input.firstThrown (n + k) =
    (input.firstThrown n).or ((input.afterCalls n).firstThrown k) := by
  unfold Input.firstThrown Input.afterCalls
  rw [List.take_add, List.findSome?_append]

theorem Input.firstThrown_eq_none {input : Input} (h : input.calmFor n = true) :
    input.firstThrown n = none := by
  refine List.findSome?_eq_none_iff.mpr fun x hx => ?_
  exact Option.isNone_iff_eq_none.mp (List.all_eq_true.mp h x hx)

/-- Code that calls user code `n` times throws what the first of these calls throws. -/
structure Throws {α : Type} (n : ℕ) (st : AcceptorState) (x : AcceptorM α) : Prop where
  calls : Calls n st x
  thrown : ∀ err st', x.result st = (.error err, st') → st.input.firstThrown n = some err

namespace Throws

variable {x : AcceptorM α}

/-- Code that calls no user code throws nothing. -/
theorem of_calls (h : Calls 0 st x) : Throws 0 st x :=
  ⟨h, fun err st' hr => by cases h.error err st' hr⟩

theorem get_bind {f : AcceptorState → AcceptorM β} (h : Throws n st (f st)) :
    Throws n st (get >>= f) := by
  refine ⟨.get_bind h.calls, fun err st' hr => h.thrown err st' ?_⟩
  rwa [result_bind, result_get] at hr

theorem bind {f : α → AcceptorM β} (hx : Throws n st x)
    (hf : ∀ b st', x.result st = (.ok b, st') → Throws k st' (f b)) :
    Throws (n + k) st (x >>= f) := by
  refine ⟨hx.calls.bind fun b st' hr => (hf b st' hr).calls, fun err st' hr => ?_⟩
  rw [Input.firstThrown_add]
  rw [result_bind] at hr
  rcases hr1 : x.result st with ⟨err1 | b, st1⟩
  · rw [hr1] at hr
    obtain ⟨herr, _⟩ := Prod.mk.inj hr
    rw [hx.thrown err1 st1 hr1, Except.error.inj herr]
    rfl
  · rw [hr1] at hr
    obtain ⟨hcalm, hinput⟩ := hx.calls.ok b st1 hr1
    rw [Input.firstThrown_eq_none hcalm, Option.none_or, ← hinput]
    exact (hf b st1 hr1).thrown err st' hr

theorem forEach {f : α → AcceptorM Unit} (as : List α) (hf : ∀ a st, Throws 1 st (f a)) :
    Throws as.length st (Exec.forEach as f) := by
  induction as generalizing st with
  | nil => exact of_calls (.pure ())
  | cons a as ih =>
    rw [List.length_cons, Nat.add_comm]
    exact (hf a st).bind fun _ _ _ => ih

theorem congr (h : Throws n st x) (hnk : n = k) : Throws k st x := hnk ▸ h

end Throws

theorem throws_callUser : Throws 1 st callUser := by
  refine ⟨calls_callUser, fun err st' hr => ?_⟩
  rw [result_callUser] at hr
  obtain ⟨herr, _⟩ := Prod.mk.inj hr
  unfold Input.firstThrown
  cases hthrown : st.input.thrown with
  | nil =>
    rw [hthrown] at herr
    cases herr
  | cons x xs =>
    rw [hthrown] at herr
    cases x with
    | none => cases herr
    | some err1 =>
      rw [← Except.error.inj herr]
      rfl

theorem throws_handleDisconnect (s : ℕ) :
    Throws (st.disconnectCalls s) st (handleDisconnect s) := by
  have hupdate : Calls 0 st
      (updateSession s fun x => Session.clearTimers { x with state := .disconnected }) :=
    calls_updateSession (fun _ => rfl) (fun _ => rfl) fun _ => rfl
  have hrun : ∀ st1 : AcceptorState, Throws ((st1.sessions s).handlers.simple .disconnected).length
      st1 (runHandlers s .disconnected) := by
    intro st1
    refine ((Throws.of_calls (calls_observe _)).bind fun _ st2 hr => .get_bind ?_).congr
      (Nat.zero_add _)
    obtain ⟨_, rfl⟩ := Prod.mk.inj hr
    exact .forEach _ fun _ _ => throws_callUser
  have hemit : ∀ st1 : AcceptorState, Throws 1 st1 (emit s .disconnect) := fun st1 =>
    ((Throws.of_calls (calls_observe _)).bind fun _ _ _ => throws_callUser).congr (Nat.zero_add 1)
  refine ((Throws.of_calls hupdate).bind fun _ st1 hr => ((hrun st1).congr ?_).bind fun _ st2 _ =>
    (hemit st2).bind fun _ _ _ => .of_calls (calls_removeAllListeners s)).congr (Nat.zero_add _)
  rw [((hupdate.setup_of_result hr) s).1]

/-! ## Acts -/

/-- An act by which no error escapes. -/
def Act.silent : Act → Bool
  | .observe o => !o.escapes
  | _ => true

theorem escaped_observe (o : Observation) (st : AcceptorState) :
    ((Act.observe o).apply st).escaped = st.escaped ++ if o.escapes then [o] else [] := by
  have htrace : ((Act.observe o).apply st).trace = st.trace ++ [o] := rfl
  rw [AcceptorState.escaped, htrace, List.filter_append, List.filter_singleton, Bool.cond_eq_ite]
  rfl

theorem escaped_apply (ha : a.silent = true) (st : AcceptorState) :
    (a.apply st).escaped = st.escaped := by
  cases hobserves : a.observes with
  | false => rw [AcceptorState.escaped, trace_apply hobserves, AcceptorState.escaped]
  | true =>
    cases a with
    | observe o =>
      rw [escaped_observe, if_neg (by simpa [Act.silent] using ha), List.append_nil]
    | disconnect s =>
      have htrace : ((Act.disconnect s).apply st).trace = st.trace ++ [.ran s .disconnected] := rfl
      rw [AcceptorState.escaped, htrace, List.filter_append]
      exact List.append_nil _
    | _ => cases hobserves

theorem silent_of_routine (ha : a.routine = true) : a.silent = true := by
  cases a with
  | observe o => cases o <;> first | rfl | cases ha
  | _ => rfl

/-- Code all of whose acts are silent lets no error escape. -/
theorem escaped_of_performs {A : Set Act} {x : AcceptorM α} (h : Performs A st x)
    (hA : ∀ a ∈ A, a.silent = true) : (x.after st).escaped = st.escaped :=
  h.eq_of (f := AcceptorState.escaped) fun st1 a ha => escaped_apply (hA a ha) st1

/-- What follows silently adds nothing. -/
theorem escaped_bind {x : AcceptorM α} {f : α → AcceptorM β}
    (hf : ∀ b st1, ((f b).after st1).escaped = st1.escaped) :
    ((x >>= f).after st).escaped = (x.after st).escaped := by
  rcases hr : x.result st with ⟨err | b, st1⟩
  · have hresult : (x >>= f).result st = (.error err, st1) := by rw [result_bind, hr]
    rw [after_of_result hresult, after_of_result hr]
  · rw [after_bind_of_ok hr, hf, after_of_result hr]

theorem silent_logout {caller : LogoutCaller} (ha : a ∈ logoutActs st s caller) :
    a.silent = true := by
  rcases ha with ⟨_, ha⟩ | ⟨_, rfl | ha | ⟨_, rfl⟩⟩
  · exact silent_of_routine (routine_settleLogout ha)
  · rfl
  · exact silent_of_routine (routine_send ha)
  · rfl

theorem silent_closeAll {stopping : Bool} (ha : a ∈ closeAllActs st stopping) :
    a.silent = true := by
  rcases ha with rfl | ⟨_, _, ha⟩
  · rfl
  · exact silent_logout ha

/-! ## Registrations -/

theorem escaped_finishRegistration (s : ℕ) (dropped : Bool) :
    ((finishRegistration s dropped).after st).escaped =
      st.escaped ++ if dropped then st.rejection s else [] := by
  unfold finishRegistration AcceptorState.rejection
  rw [after_bind_of_ok (result_get st)]
  cases hlimit : st.limitReached with
  | false =>
    have hnone : (if dropped = true then [] else []) = ([] : List Observation) := ite_self []
    exact (List.append_nil _).symm.trans (congrArg (st.escaped ++ ·) hnone.symm)
  | true =>
    cases dropped with
    | false => exact (List.append_nil _).symm
    | true => exact escaped_observe _ st

/-- A registration fails unnoticed only when it does not have to wait for a logout. -/
theorem escaped_registerSession (s : ℕ) (dropped : Bool) :
    ((registerSession s dropped).after st).escaped = st.escaped ++
      if st.registry.has (st.sessions s).sessionId then []
      else if dropped then st.rejection s else [] := by
  unfold registerSession
  rw [after_bind_of_ok (result_get st), OrderedMap.has_eq_isSome]
  cases st.registry.get? (st.sessions s).sessionId with
  | none => exact escaped_finishRegistration s dropped
  | some old =>
    refine Eq.trans ?_ (List.append_nil _).symm
    exact escaped_of_performs (performs_logout old _ _ fun _ => id) fun _ => silent_logout

/-! ## Refusals -/

theorem escaped_socketError (c : ℕ) (err : JSError) : ((socketError c err).after st).escaped =
    st.escaped ++ if (st.sockets c).errorListener then [] else [.uncaught err] := by
  unfold socketError emitSocketError
  rw [escaped_bind fun _ _ => rfl, after_bind_of_ok (result_get st)]
  cases (st.sockets c).errorListener with
  | true => exact escaped_observe (.failed err) st
  | false => exact escaped_observe (.uncaught err) st

theorem escaped_failEndedWrite (c : ℕ) : ((failEndedWrite c).after st).escaped = st.escaped ++
    if (st.sockets c).failsWrite = true ∧ (st.sockets c).errorListener = false then
      [.uncaught (js "write after end")] else [] := by
  unfold failEndedWrite
  rw [after_bind_of_ok (result_get st)]
  cases (st.sockets c).failsWrite with
  | false =>
    rw [if_neg Bool.false_ne_true, if_neg fun h => Bool.false_ne_true h.1, List.append_nil]
    rfl
  | true =>
    rw [if_pos rfl, escaped_socketError]
    cases (st.sockets c).errorListener <;> rfl

/-- A refusal lets an error escape only when it can be encoded. -/
theorem escaped_refusal (c : ℕ) (m : Message) (rest : List Message) (reason : JSString)
    {f : Except JSError Unit → AcceptorM Unit} (hok : f (.ok ()) = pure ())
    (herror : ∀ err, ¬ Refusable st.config m →
      ((f (.error err)).after st).escaped = st.escaped) :
    ((attempt (sendLogoutAndClose c m rest reason) >>= f).after st).escaped =
      st.escaped ++ st.refusalLeak c m := by
  have hrefusable : Refusable st.config m ↔ ∃ raw, (createLogoutMessage st.config
      st.input.sendingTime m reason).toString = .ok raw := refusable_iff
  rw [after_refusal c m rest reason hok, AcceptorState.refusalLeak]
  cases hraw : (createLogoutMessage st.config st.input.sendingTime m reason).toString with
  | error err =>
    have hnot : ¬ Refusable st.config m := by simp [hrefusable, hraw]
    rw [if_neg fun h => hnot h.1, List.append_nil]
    exact herror err hnot
  | ok raw =>
    have hyes : Refusable st.config m := hrefusable.mpr ⟨raw, hraw⟩
    have hwritten : ((failEndedWrite c).after ((Act.observe (.refused c raw)).apply st)).escaped =
        ((Act.observe (.refused c raw)).apply st).escaped ++ _ := escaped_failEndedWrite c
    have hobserved : ((Act.observe (.refused c raw)).apply st).escaped = st.escaped :=
      escaped_apply rfl st
    rw [hobserved] at hwritten
    refine (escaped_apply (a := .suspend (.closeDelay c rest)) rfl _).trans (hwritten.trans ?_)
    simp only [hyes, true_and]
    rfl

theorem escaped_refuseMessage (c : ℕ) (m : Message) (rest : List Message) (reason : JSString) :
    ((refuseMessage c m rest reason).after st).escaped = st.escaped ++ st.refusalLeak c m :=
  escaped_refusal c m rest reason rfl fun _ _ => rfl

theorem escaped_refuseThrownLogon (c : ℕ) (m : Message) (rest : List Message)
    (reason : JSString) :
    ((refuseThrownLogon c m rest reason).after st).escaped = st.escaped ++ st.refusalLeak c m :=
  escaped_refusal c m rest reason rfl fun _ _ => rfl

theorem escaped_refuseLogon (c : ℕ) (m : Message) (rest : List Message) (reason : JSString) :
    ((refuseLogon c m rest reason).after st).escaped = st.escaped ++ st.refusalLeak c m := by
  refine escaped_refusal c m rest reason rfl fun err hnot => ?_
  refine (escaped_refuseThrownLogon c m rest err).trans ?_
  rw [AcceptorState.refusalLeak, if_neg fun h => hnot h.1, List.append_nil]

theorem escaped_handleNonLogonMessage (c : ℕ) (m : Message) (rest : List Message) :
    ((handleNonLogonMessage c m rest).after st).escaped = st.escaped ++
      if st.registry.get? (buildSessionId m) = none then st.refusalLeak c m else [] := by
  unfold handleNonLogonMessage
  rw [after_bind_of_ok (result_get st)]
  cases st.registry.get? (buildSessionId m) with
  | none => exact escaped_refuseMessage c m rest _
  | some s =>
    rw [if_neg (by simp), List.append_nil, after_bind_of_ok (result_observe _)]
    refine (escaped_of_performs (performs_handleMessage fun _ => id) fun _ ha =>
      silent_of_routine (routine_handleMessage ha)).trans ?_
    exact escaped_apply (a := .observe (.dispatched c s m)) rfl st

/-- The loop over messages lets an error escape only when it refuses its first message. -/
theorem escaped_processMessages (c : ℕ) (ms : List Message) :
    ((processMessages c ms).after st).escaped = st.escaped ++ st.loopLeak c ms := by
  cases ms with
  | nil => exact (List.append_nil _).symm
  | cons m rest =>
    have hsilent : ∀ x : AcceptorM Unit, routable m = false → (x.after st).escaped = st.escaped →
        (x.after st).escaped = st.escaped ++ st.loopLeak c (m :: rest) := by
      intro x hm hx
      rw [hx, AcceptorState.loopLeak, if_neg (by simp [hm]), List.append_nil]
    rw [processMessages]
    split
    · next htype =>
      split
      · next err herr =>
        exact hsilent _ (by simp [routable, herr, Except.isOk, Except.toBool])
          (escaped_apply (a := .observe (.failed err)) rfl st)
      · next raw hraw =>
        split
        · next hlogon =>
          refine hsilent _ (by simp [routable, hlogon]) ?_
          rw [after_bind_of_ok (result_observe _)]
          refine (escaped_of_performs (performs_validateLogon fun _ => id) ?_).trans
            (escaped_apply (a := .observe (.processing c m)) rfl st)
          rintro a (⟨_, rfl, _⟩ | ⟨rfl, _⟩) <;> rfl
        · next hlogon =>
          have hroutable : routable m = true := by
            simp [routable, htype, hraw, hlogon, Except.isOk, Except.toBool]
          have hbegun : ((Act.observe (.processing c m)).apply st).escaped = st.escaped :=
            escaped_apply rfl st
          rw [after_bind_of_ok (result_observe _)]
          refine (escaped_handleNonLogonMessage c m rest).trans ?_
          rw [AcceptorState.loopLeak]
          simp only [hroutable, true_and]
          exact congrArg (· ++ _) hbegun
    · next htype =>
      exact hsilent _ (by simp [routable, htype]) (escaped_apply (a := .suspend _) rfl st)

/-! ## Steps -/

theorem escaped_afterValidated (c : ℕ) (m : Message) (rest : List Message) :
    ((afterValidated c m rest .valid).after st).escaped = st.escaped ++
      if st.registry.has (buildSessionId m) then [] else st.rejection st.nextSession := by
  have hcreated : ((registerSession st.nextSession true).after ((Act.create
      (buildSessionConfig st.config m) c).apply st)).escaped = _ :=
    escaped_registerSession st.nextSession true
  have hid : (((Act.create (buildSessionConfig st.config m) c).apply st).sessions
      st.nextSession).sessionId = buildSessionId m := by
    rw [sessions_apply_eq, Act.onSession, if_pos rfl]
    rfl
  rw [hid] at hcreated
  unfold afterValidated
  rw [after_bind_congr (result_createNewSession c m)]
  refine Eq.trans ?_ hcreated
  rw [escaped_bind fun _ _ => rfl, escaped_bind fun _ _ => rfl]

theorem escaped_nextListener : (callNextListener.after st).escaped = st.escaped ++
    match st.closing with
    | some (_, .session s :: _) =>
      ((st.input.firstThrown (st.disconnectCalls s)).map Observation.uncaught).toList
    | _ => [] := by
  cases hclosing : st.closing with
  | none =>
    unfold callNextListener
    rw [after_bind_of_ok (result_get st), hclosing]
    exact (List.append_nil _).symm
  | some x =>
    obtain ⟨c, _ | ⟨l, ls⟩⟩ := x
    · unfold callNextListener
      rw [after_bind_of_ok (result_get st), hclosing]
      exact (List.append_nil _).symm
    · obtain ⟨st1, hst1⟩ : ∃ st1, (Act.setClosing (some (c, ls))).apply st = st1 := ⟨_, rfl⟩
      have hescaped1 : st1.escaped = st.escaped := by
        rw [← hst1]
        rfl
      have hlistener : ((callCloseListener c l).after st1).escaped = st1.escaped :=
        escaped_of_performs (performs_callCloseListener rfl (SameSetup.refl st1) rfl fun _ => id)
          fun _ ha => silent_of_routine (routine_listener ha)
      rw [after_callNextListener hclosing hst1]
      cases l with
      | acceptor =>
        rw [result_acceptorListener]
        exact (hlistener.trans hescaped1).trans (List.append_nil _).symm
      | session s =>
        have hthrows : Throws (st1.disconnectCalls s + 0) st1 (callCloseListener c (.session s)) :=
          (throws_handleDisconnect s).bind fun _ _ _ => .of_calls (calls_removeId s)
        have hinput : st1.input = st.input ∧ st1.disconnectCalls s = st.disconnectCalls s := by
          rw [← hst1]
          exact ⟨rfl, rfl⟩
        rcases hr : (callCloseListener c (.session s)).result st1 with ⟨err | _, st2⟩
        · have hthrown := hthrows.thrown err st2 hr
          rw [after_of_result hr] at hlistener
          rw [hinput.1, hinput.2, Nat.add_zero] at hthrown
          dsimp only
          rw [hthrown, escaped_apply (a := .setClosing none) rfl, escaped_observe, hlistener,
            hescaped1]
          rfl
        · obtain ⟨hcalm, _⟩ := hthrows.calls.ok _ _ hr
          rw [after_of_result hr] at hlistener
          rw [hinput.1, hinput.2, Nat.add_zero] at hcalm
          dsimp only
          rw [Input.firstThrown_eq_none hcalm, hlistener, hescaped1]
          exact (List.append_nil _).symm

theorem escaped_receive (c : ℕ) (data : List UInt8) : ((receive c data).after st).escaped =
    st.escaped ++ if (st.sockets c).dataListener then st.loopLeak c (processData data) else [] := by
  unfold receive
  rw [after_bind_of_ok (result_get _)]
  cases (st.sockets c).dataListener with
  | true => exact escaped_processMessages c _
  | false => exact (List.append_nil _).symm

/-- What a task lets escape. -/
theorem escaped_resume (frame : Frame) :
    ((resume frame).after st).escaped = st.escaped ++ st.leaks frame := by
  have hsilent : (∀ a ∈ resumeActs st frame, a.silent = true) → st.leaks frame = [] →
      ((resume frame).after st).escaped = st.escaped ++ st.leaks frame := by
    intro hacts hnone
    rw [hnone, List.append_nil]
    exact escaped_of_performs (performs_resume fun _ => id) hacts
  cases frame with
  | nextMessage c rest => exact escaped_processMessages c rest
  | validateCredentials c m rest =>
    refine hsilent (fun a ha => ?_) rfl
    rcases ha with ⟨_, rfl, _⟩ | ⟨rfl, _⟩ <;> rfl
  | getAllowedSenderCompIds c m rest =>
    refine hsilent (fun a ha => ?_) rfl
    obtain ⟨_, rfl, _⟩ := ha
    rfl
  | validated c m rest verdict =>
    cases verdict with
    | valid => exact escaped_afterValidated c m rest
    | thrown err => exact escaped_refuseThrownLogon c m rest err
    | invalid reason => exact escaped_refuseLogon c m rest _
  | registration s dropped =>
    refine (escaped_finishRegistration s dropped).trans ?_
    cases dropped <;> rfl
  | _ =>
    refine hsilent (fun a ha => silent_of_routine (routine_resume rfl ?_ ?_ ha)) rfl
    · rintro _ _ ⟨⟩
    · rintro _ _ ⟨⟩

/-- A step lets exactly these errors escape. -/
theorem escaped_step (hstep : st.step e = some st') :
    st'.escaped = st.escaped ++ st.escapes e := by
  have hmeets : (st.meets e).escaped = st.escaped := rfl
  have hsilent : (∀ a ∈ eventActs (st.meets e) e.event, a.silent = true) →
      st.escapes e = [] → st'.escaped = st.escaped ++ st.escapes e := by
    intro hacts hnone
    rw [hnone, List.append_nil, ← after_of_step hstep]
    exact escaped_of_performs (performs_perform e.event) hacts
  rcases e with ⟨event, input⟩
  cases event with
  | resume i =>
    obtain ⟨frame, hf⟩ := exists_task_of_step hstep rfl
    have hescapes : st.escapes ⟨.resume i, input⟩ = st.leaks frame := by
      simp only [AcceptorState.escapes, hf, Option.elim_some]
    rw [← after_resume_step hstep rfl hf, escaped_resume, hescapes]
    cases frame <;> rfl
  | nextListener =>
    rw [← nextListener_step hstep rfl]
    exact escaped_nextListener
  | socketError c err =>
    rw [← after_of_step hstep]
    exact escaped_socketError c err
  | registerSession s =>
    rw [← after_of_step hstep]
    refine (escaped_registerSession s false).trans ?_
    exact congrArg (st.escaped ++ ·) (ite_self [])
  | data c data =>
    rw [← after_of_step hstep]
    exact escaped_receive c data
  | reject s err =>
    rw [← after_of_step hstep]
    exact escaped_observe (.rejected s err) st
  | heartbeat s => exact hsilent (fun a ha => silent_of_routine (routine_send ha)) rfl
  | send s m => exact hsilent (fun a ha => silent_of_routine (routine_send ha)) rfl
  | logout s reason => exact hsilent (fun a ha => silent_logout ha) rfl
  | handleMessage s m =>
    exact hsilent (fun a ha => silent_of_routine (routine_handleMessage ha)) rfl
  | stop => exact hsilent (fun a ha => silent_closeAll ha) rfl
  | closeAll => exact hsilent (fun a ha => silent_closeAll ha) rfl
  | createSession config c =>
    refine hsilent (fun a ha => ?_) rfl
    rcases ha with rfl | rfl <;> rfl
  | _ =>
    refine hsilent (fun a ha => ?_) rfl
    obtain rfl := Set.mem_singleton_iff.mp ha
    rfl

/-! ## Sockets without a listener for errors -/

/-- Nobody listens for the errors of an accepted socket. -/
structure AcceptorState.Deaf (st : AcceptorState) (c : ℕ) : Prop where
  accepted : c < st.nextSocket
  errorListener : (st.sockets c).errorListener = false

/-- Only a session takes away the listeners of its socket. -/
theorem deaf_apply (h : (a.apply st).Deaf c) :
    st.Deaf c ∨ ∃ s, a = .strip s ∧ (st.sessions s).socket = c := by
  obtain ⟨hlt, herror⟩ := h
  have hupdate : ∀ {x : ℕ} {f : Connection → Connection},
      ((st.withSocketAs x f).sockets c).errorListener = false →
      (∀ y, (f y).errorListener = y.errorListener) → (st.sockets c).errorListener = false := by
    intro x f hfalse hf
    refine Eq.trans (Eq.symm ?_) hfalse
    refine withSocketAs_sockets (P := fun y => y.errorListener = (st.sockets c).errorListener) ?_
      fun _ => rfl
    rintro rfl
    exact hf _
  cases hchanges : a.changesSockets with
  | false =>
    have hsame := sameSockets_apply hchanges st
    rw [hsame.nextSocket] at hlt
    rw [hsame.sockets] at herror
    exact Or.inl ⟨hlt, herror⟩
  | true =>
    cases a with
    | strip s =>
      by_cases hs : (st.sessions s).socket = c
      · exact Or.inr ⟨s, rfl, hs⟩
      · have hsockets : ((Act.strip s).apply st).sockets c = st.sockets c :=
          Function.update_of_ne (Ne.symm hs) _ _
        rw [hsockets] at herror
        exact Or.inl ⟨hlt, herror⟩
    | connect r =>
      have hsockets : ∀ x, ((Act.connect r).apply st).sockets x = if x = st.nextSocket then
          { st.sockets st.nextSocket with remoteAddress := r }.setupSocketEventHandlers
          else st.sockets x := fun x => Function.update_apply ..
      rw [hsockets] at herror
      split at herror
      · cases herror
      · next hc => exact Or.inl ⟨Nat.lt_of_le_of_ne (Nat.le_of_lt_succ hlt) hc, herror⟩
    | destroy x =>
      simp only [Act.apply] at herror
      exact Or.inl ⟨hlt, hupdate herror fun _ => rfl⟩
    | endSocket s =>
      simp only [Act.apply] at herror
      exact Or.inl ⟨hlt, hupdate herror fun _ => rfl⟩
    | listen x s =>
      simp only [Act.apply] at herror
      exact Or.inl ⟨hlt, hupdate herror fun _ => rfl⟩
    | close x =>
      simp only [Act.apply] at herror
      exact Or.inl ⟨hlt, hupdate herror fun _ => rfl⟩
    | forget _ | setClosing _ | shut => exact Or.inl ⟨hlt, herror⟩
    | _ => cases hchanges

/-- A session that a step ends completely is off. -/
theorem off_of_completes (hstep : st.step e = some st')
    (h : s ∈ (st.meets e).completes e.event) : (st'.sessions s).Off := by
  by_cases hevent : e.event = .nextListener
  · rw [hevent] at h
    cases hclosing : st.closing with
    | none =>
      have henabled := step_enabled hstep
      rw [hevent, AcceptorState.enabled, hclosing] at henabled
      cases henabled
    | some x =>
      obtain ⟨c, _ | ⟨_ | y, ls⟩⟩ := x
      · have hmeets : (st.meets e).closing = some (c, []) := hclosing
        have hends := ends_of_completes h
        simp [AcceptorState.ends, AcceptorState.incoming, hmeets] at hends
      · exact ((cleared_step_acceptor hstep hevent hclosing).2 s h).off
      · have hmeets : (st.meets e).closing = some (c, .session y :: ls) := hclosing
        have hy : s = y := by
          have hends := ends_of_completes h
          rw [ends_listened hmeets] at hends
          exact List.mem_singleton.mp hends
        subst hy
        exact (cleared_step_session hstep hevent hclosing h).2.off
  · rw [← after_of_step hstep]
    exact (left_of_completes h hevent).off

/-- A socket that a step leaves without a listener for errors belongs to a session that the step
ends. -/
theorem deaf_step (hreached : acceptor.Reached guard st) (hstep : st.step e = some st')
    (h : st'.Deaf c) : st.Deaf c ∨
      ∃ s < st.nextSession, (st.sessions s).socket = c ∧ (st'.sessions s).Off := by
  have hstripped : st.Deaf c ∨ ∃ s < st.nextSession, (st.sessions s).socket = c ∧
      s ∈ (st.meets e).completes e.event := by
    refine (step_keeps hstep (P := fun st1 => st.nextSession ≤ st1.nextSession ∧
      (∀ s < st.nextSession, (st1.sessions s).socket = (st.sessions s).socket) ∧
        (st1.Deaf c → st.Deaf c ∨ ∃ s < st.nextSession, (st.sessions s).socket = c ∧
          s ∈ (st.meets e).completes e.event))
      ⟨Nat.le_refl _, fun _ _ => rfl, fun hdeaf => Or.inl ⟨hdeaf.1, hdeaf.2⟩⟩ ?_).2.2 h
    rintro st1 a _ ha ⟨hnext, hsocket, ih⟩
    refine ⟨hnext.trans (nextSession_le_apply a st1), fun s hs => ?_, fun hdeaf => ?_⟩
    · rw [(session_apply a (Nat.lt_of_lt_of_le hs hnext)).2, hsocket s hs]
    · rcases deaf_apply hdeaf with hold | ⟨s, rfl, hs⟩
      · exact ih hold
      · have hends : s ∈ (st.meets e).ends e.event := ends_of_completes ha
        have hlt : s < st.nextSession := lt_nextSession_of_ends hreached (step_enabled hstep) hends
        exact Or.inr ⟨s, hlt, (hsocket s hlt).symm.trans hs, ha⟩
  rcases hstripped with hold | ⟨s, hlt, hsocket, hs⟩
  · exact Or.inl hold
  · exact Or.inr ⟨s, hlt, hsocket, off_of_completes hstep hs⟩

theorem ended_of_deaf (hreached : acceptor.Reached guard st) (h : st.Deaf c) :
    ∃ s < st.nextSession, (st.sessions s).socket = c ∧ (st.sessions s).heartbeatTimer = false := by
  induction hreached with
  | init hinit =>
    obtain ⟨config, rfl⟩ := hinit
    exact absurd h.accepted (Nat.not_lt_zero c)
  | step hreached _ hstep ih =>
    rcases deaf_step hreached hstep h with hold | ⟨s, hlt, hsocket, hoff⟩
    · obtain ⟨s, hlt, hsocket, htimer⟩ := ih hold
      exact ⟨s, Nat.lt_of_lt_of_le hlt (nextSession_le_step hstep),
        (binding_step hstep hlt).2.trans hsocket, timer_step hstep hlt htimer⟩
    · exact ⟨s, Nat.lt_of_lt_of_le hlt (nextSession_le_step hstep),
        (binding_step hstep hlt).2.trans hsocket, hoff.heartbeatTimer⟩

/-! ## The result -/

/-- In every run the errors that escape are those listed, one for each time; and a socket is only
without a listener for its errors when a session on it has ended. -/
theorem escaped_eq {p : AcceptorState × List Observation}
    (h : escapingAcceptor.Reached (fun _ _ => True) p) :
    p.1.trace.filter Observation.escapes = p.2 ∧
      ∀ c < p.1.nextSocket, (p.1.sockets c).errorListener = false →
        ∃ s < p.1.nextSession, (p.1.sessions s).socket = c ∧
          (p.1.sessions s).heartbeatTimer = false := by
  have hreached : acceptor.Reached (fun _ _ => True) p.1 := .of_recorded (fun _ _ => id) h
  refine ⟨?_, fun c hc herror => ended_of_deaf hreached ⟨hc, herror⟩⟩
  induction h with
  | init hinit =>
    obtain ⟨⟨config, hconfig⟩, hrecord⟩ := hinit
    rw [hconfig, hrecord]
    rfl
  | step hprevious _ hstep ih =>
    obtain ⟨hstep, hrecord⟩ := System.recorded_step.mp hstep
    rw [hrecord, ← ih (.of_recorded (fun _ _ => id) hprevious)]
    exact escaped_step hstep

/-- The only place is taken when a second client logs on, the promise of a handler of the first
one rejects after its session has logged out, and its connection is reset. -/
def escapingSteps : List Step :=
  (Event.connect (js "client:1")).calmly :: logonSteps 0 (js "CLIENT") ++
    (Event.connect (js "client:2")).calmly :: logonSteps 1 (js "OTHER") ++
      [Event.logout 0 .undefined, .resume 0, .reject 0 (js "unavailable"),
        .socketError 0 (js "ECONNRESET")].map Event.calmly

theorem escaped_eq_escapingSteps : ∃ p ∈ escapingAcceptor.exec (broker 1, []) escapingSteps,
    p.2 = [.unhandled 1 (js "Maximum number of sessions (1) reached"),
      .rejected 0 (js "unavailable"), .uncaught (js "ECONNRESET")] ∧ p.1.trace.filter Observation.escapes = p.2 ∧
        ∀ c < p.1.nextSocket, (p.1.sockets c).errorListener = false →
          ∃ s < p.1.nextSession, (p.1.sessions s).socket = c ∧
            (p.1.sessions s).heartbeatTimer = false := by
  have hrun : ∃ p ∈ escapingAcceptor.exec (broker 1, []) escapingSteps,
      p.2 = [.unhandled 1 (js "Maximum number of sessions (1) reached"),
        .rejected 0 (js "unavailable"), .uncaught (js "ECONNRESET")] := by decide +kernel
  obtain ⟨p, hp, hrecord⟩ := hrun
  exact ⟨p, hp, hrecord, escaped_eq (.of_exec ⟨⟨_, rfl⟩, rfl⟩ hp)⟩

end NestQuickfix.Acceptor
