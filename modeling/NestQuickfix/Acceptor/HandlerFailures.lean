import NestQuickfix.Acceptor.UserCalls
import NestQuickfix.Lib.Acts

/-!
# Failing handlers

A handler can throw, or return a promise that rejects. `handleMessage` waits for the promises of
message handlers only. Those of the connected, logon, logout and disconnected handlers are
dropped, so that a rejection among them reaches nobody.
-/

namespace NestQuickfix.Acceptor

open Lib Lib.Exec

/-- What a call of a handler does: it returns, throws, or returns a promise that resolves or
rejects. -/
inductive HandlerOutcome where
  | returns
  | throws (e : JSError)
  | resolves
  | rejects (e : JSError)
  deriving DecidableEq

/-- What a call throws. -/
def HandlerOutcome.thrown : HandlerOutcome → Option JSError
  | .throws e => some e
  | _ => none

/-- Whether the promise of a call rejects. -/
def HandlerOutcome.isRejected : HandlerOutcome → Bool
  | .rejects _ => true
  | _ => false

/-- Whether a call fails. -/
def HandlerOutcome.fails (outcome : HandlerOutcome) : Bool :=
  outcome.thrown.isSome || outcome.isRejected

/-- The handlers registered with a session, with what their calls do; a message handler has a
message type. -/
structure RegisteredHandlers where
  simple : HandlerKind → List HandlerOutcome
  message : List (Value × HandlerOutcome)

/-- What else `handleMessage` meets: the error of the message it sends, if any, and what
the listeners of the events throw. -/
structure Surroundings where
  sendError : Option JSError
  listenerError : SessionEvent → Option JSError

/-- A call of a handler, and whether its promise is awaited. -/
structure HandlerCall where
  outcome : HandlerOutcome
  awaited : Bool
  deriving DecidableEq

/-- A call whose failure is an error of the code that makes it. -/
def HandlerCall.caught (c : HandlerCall) : Bool :=
  c.outcome.thrown.isSome || c.awaited && c.outcome.isRejected

/-- The calls of a loop: a throw ends it. -/
def untilThrow : List HandlerOutcome → List HandlerOutcome
  | [] => []
  | outcome :: outcomes =>
    if outcome.thrown.isSome then [outcome] else outcome :: untilThrow outcomes

/-- The handlers that are called without waiting for them. -/
def RegisteredHandlers.dropped (handlers : RegisteredHandlers) (env : Surroundings) (m : Message) :
    List HandlerOutcome :=
  if m.getField Fields.msgType = MsgType.logon then
    if env.sendError = none then
      untilThrow (handlers.simple .connected ++ handlers.simple .logon)
    else []
  else if m.getField Fields.msgType = MsgType.logout then
    if (∀ outcome ∈ handlers.simple .logout, outcome.thrown = none) ∧
        env.listenerError .loggedOut = none then
      handlers.simple .logout ++ untilThrow (handlers.simple .disconnected)
    else untilThrow (handlers.simple .logout)
  else []

/-- Session code with the handler calls it has made. -/
abbrev HandlingM := Exec JSError (List HandlerCall)

namespace Handling

/-- An error that is thrown if there is one. -/
def throwIfAny : Option JSError → HandlingM Unit
  | none => pure ()
  | some e => throw e

/-- `handler(...)`. -/
def call (outcome : HandlerOutcome) : HandlingM Unit := do
  modify fun calls => calls ++ [⟨outcome, false⟩]
  throwIfAny outcome.thrown

/-- `await handler(...)`. -/
def callAndWait (outcome : HandlerOutcome) : HandlingM Unit := do
  modify fun calls => calls ++ [⟨outcome, true⟩]
  match outcome with
  | .throws e => throw e
  | .rejects e => throw e
  | _ => pure ()

variable (env : Surroundings) (handlers : RegisteredHandlers)

/-- `handleDisconnect`. -/
def handleDisconnect : HandlingM Unit := do
  Exec.forEach (handlers.simple .disconnected) call
  throwIfAny (env.listenerError .disconnect)

/-- `handleLogon`. -/
def handleLogon : HandlingM Unit := do
  throwIfAny env.sendError
  Exec.forEach (handlers.simple .connected) call
  Exec.forEach (handlers.simple .logon) call
  throwIfAny (env.listenerError .loggedOn)

/-- `handleLogout`. -/
def handleLogout : HandlingM Unit := do
  Exec.forEach (handlers.simple .logout) call
  throwIfAny (env.listenerError .loggedOut)
  handleDisconnect env handlers

/-- The loop over the message handlers. -/
def runMessageHandlers (msgType : Value) : HandlingM Unit :=
  Exec.forEach (handlers.message.filter fun h => !h.1.truthy || h.1 = msgType) fun h =>
    callAndWait h.2

/-- The `switch` of `handleMessage` on the message type. -/
def handleSessionMessage (msgType : Value) : HandlingM Unit :=
  if msgType = MsgType.logon then handleLogon env handlers
  else if msgType = MsgType.logout then handleLogout env handlers
  else if msgType = MsgType.testRequest then throwIfAny env.sendError
  else pure ()

/-- `handleMessage`. -/
def handleMessage (m : Message) : HandlingM Unit := do
  handleSessionMessage env handlers (m.getField Fields.msgType)
  runMessageHandlers handlers (m.getField Fields.msgType)

/-- How `handleMessage` settles, and the calls it has made. -/
def handled (m : Message) : Except JSError Unit × List HandlerCall :=
  (handleMessage env handlers m).result []

/-- `handleMessage` rejects if a handler it has called fails, and no rejected promise of a handler
is left unhandled. -/
structure FailuresContained (env : Surroundings) (handlers : RegisteredHandlers) (m : Message) :
    Prop where
  rejects : ∀ call ∈ (handled env handlers m).2, call.outcome.fails = true →
    ∃ e, (handled env handlers m).1 = .error e
  awaited : ∀ call ∈ (handled env handlers m).2, call.outcome.isRejected = true →
    call.awaited = true

/-- The condition: none of the handlers that are called without waiting rejects. -/
def NoneRejects (env : Surroundings) (handlers : RegisteredHandlers) (m : Message) : Prop :=
  ∀ outcome ∈ handlers.dropped env m, outcome.isRejected = false

/-! ## Rejections -/

/-- The code throws if a call it has made fails with an error of the code. -/
def Reports (x : HandlingM Unit) : Prop :=
  ∀ s, ∃ calls, x.after s = s ++ calls ∧
    ((∃ c ∈ calls, c.caught = true) → ∃ e, (x.result s).1 = .error e)

namespace Reports

variable {x : HandlingM Unit} {f : Unit → HandlingM Unit}

theorem bind (hx : Reports x) (hf : ∀ u, Reports (f u)) : Reports (x >>= f) := by
  intro s
  obtain ⟨calls, hcalls, hreports⟩ := hx s
  rcases hr : x.result s with ⟨e | u, s'⟩
  · have hbind : (x >>= f).result s = (.error e, s') := by rw [result_bind, hr]
    refine ⟨calls, ?_, fun _ => ⟨e, by rw [hbind]⟩⟩
    rw [after_of_result hbind, ← hcalls, after_of_result hr]
  · have hbind : (x >>= f).result s = (f u).result s' := by rw [result_bind, hr]
    obtain ⟨calls', hcalls', hreports'⟩ := hf u s'
    refine ⟨calls ++ calls', ?_, ?_⟩
    · rw [Exec.after, hbind, ← Exec.after, hcalls', ← List.append_assoc, ← hcalls,
        after_of_result hr]
    · rintro ⟨c, hc, hcaught⟩
      rw [hbind]
      rcases List.mem_append.mp hc with hc | hc
      · obtain ⟨e, he⟩ := hreports ⟨c, hc, hcaught⟩
        rw [hr] at he
        cases he
      · exact hreports' ⟨c, hc, hcaught⟩

theorem pure (u : Unit) : Reports (Pure.pure u) :=
  fun s => ⟨[], (List.append_nil s).symm, fun ⟨_, hc, _⟩ => absurd hc List.not_mem_nil⟩

theorem throwIfAny (error : Option JSError) : Reports (throwIfAny error) := by
  cases error with
  | none => exact pure ()
  | some e => exact fun s => ⟨[], (List.append_nil s).symm, fun _ => ⟨e, rfl⟩⟩

theorem call (outcome : HandlerOutcome) : Reports (call outcome) := by
  intro s
  refine ⟨[⟨outcome, false⟩], ?_, ?_⟩
  · cases outcome <;> rfl
  · rintro ⟨c, hc, hcaught⟩
    rw [List.mem_singleton.mp hc] at hcaught
    cases outcome with
    | throws e => exact ⟨e, rfl⟩
    | returns | resolves | rejects => cases hcaught

theorem callAndWait (outcome : HandlerOutcome) : Reports (callAndWait outcome) := by
  intro s
  refine ⟨[⟨outcome, true⟩], ?_, ?_⟩
  · cases outcome <;> rfl
  · rintro ⟨c, hc, hcaught⟩
    rw [List.mem_singleton.mp hc] at hcaught
    cases outcome with
    | throws e => exact ⟨e, rfl⟩
    | rejects e => exact ⟨e, rfl⟩
    | returns | resolves => cases hcaught

theorem forEach {α : Type} {as : List α} {g : α → HandlingM Unit} (hg : ∀ a, Reports (g a)) :
    Reports (Exec.forEach as g) := by
  induction as with
  | nil => exact pure ()
  | cons a as ih => exact bind (hg a) fun _ => ih

end Reports

theorem reports_handleMessage (env : Surroundings) (handlers : RegisteredHandlers) (m : Message) :
    Reports (handleMessage env handlers m) := by
  have hdisconnect : Reports (handleDisconnect env handlers) :=
    .bind (.forEach .call) fun _ => .throwIfAny _
  have hlogon : Reports (handleLogon env handlers) :=
    .bind (.throwIfAny _) fun _ => .bind (.forEach .call) fun _ =>
      .bind (.forEach .call) fun _ => .throwIfAny _
  have hlogout : Reports (handleLogout env handlers) :=
    .bind (.forEach .call) fun _ => .bind (.throwIfAny _) fun _ => hdisconnect
  have hmessage : ∀ msgType, Reports (runMessageHandlers handlers msgType) := fun msgType =>
    .forEach fun h : Value × HandlerOutcome => .callAndWait h.2
  refine .bind ?_ fun _ => hmessage _
  unfold handleSessionMessage
  split
  · exact hlogon
  · split
    · exact hlogout
    · split
      · exact .throwIfAny _
      · exact .pure ()

/-! ## Dropped promises -/

/-- The outcomes of the calls that are not awaited. -/
def droppedCalls (calls : List HandlerCall) : List HandlerOutcome :=
  (calls.filter fun c => !c.awaited).map HandlerCall.outcome

theorem droppedCalls_append (calls calls' : List HandlerCall) :
    droppedCalls (calls ++ calls') = droppedCalls calls ++ droppedCalls calls' := by
  simp [droppedCalls]

theorem droppedCalls_map (outcomes : List HandlerOutcome) :
    droppedCalls (outcomes.map fun outcome => ⟨outcome, false⟩) = outcomes := by
  simp [droppedCalls, List.filter_map, Function.comp_def]

/-- A loop that calls handlers without waiting: the calls up to the first throw. -/
theorem result_forEach_call (outcomes : List HandlerOutcome) (s : List HandlerCall) :
    (Exec.forEach outcomes call).result s =
      ((outcomes.findSome? HandlerOutcome.thrown).elim (.ok ()) .error,
        s ++ (untilThrow outcomes).map fun outcome => ⟨outcome, false⟩) := by
  induction outcomes generalizing s with
  | nil => simp [Exec.forEach, untilThrow]
  | cons outcome outcomes ih =>
    have hcall : (call outcome).result s =
        (outcome.thrown.elim (.ok ()) .error, s ++ [⟨outcome, false⟩]) := by
      cases outcome <;> rfl
    rw [Exec.forEach, result_bind, hcall, List.findSome?_cons, untilThrow]
    cases hthrown : outcome.thrown with
    | none => simp [ih]
    | some e => simp

/-- Code that makes no call without waiting. -/
def DropsNone (x : HandlingM Unit) : Prop := ∀ s, droppedCalls (x.after s) = droppedCalls s

theorem dropsNone_throwIfAny (error : Option JSError) : DropsNone (throwIfAny error) := by
  cases error <;> exact fun _ => rfl

theorem DropsNone.bind {x : HandlingM Unit} {f : Unit → HandlingM Unit}
    (hf : ∀ u, DropsNone (f u)) (s : List HandlerCall) :
    droppedCalls ((x >>= f).after s) = droppedCalls (x.after s) := by
  unfold Exec.after
  rw [result_bind]
  rcases x.result s with ⟨e | u, s'⟩
  · rfl
  · exact hf u s'

theorem dropsNone_callAndWait (outcome : HandlerOutcome) : DropsNone (callAndWait outcome) := by
  intro s
  have hafter : (callAndWait outcome).after s = s ++ [⟨outcome, true⟩] := by
    cases outcome <;> rfl
  rw [hafter, droppedCalls_append]
  exact List.append_nil _

theorem dropsNone_runMessageHandlers (handlers : RegisteredHandlers) (msgType : Value) :
    DropsNone (runMessageHandlers handlers msgType) := by
  unfold runMessageHandlers
  generalize handlers.message.filter _ = hs
  induction hs with
  | nil => exact fun _ => rfl
  | cons h hs ih =>
    intro s
    rw [Exec.forEach, DropsNone.bind (fun _ => ih), dropsNone_callAndWait]

/-- A loop goes on behind handlers that do not throw. -/
theorem untilThrow_append (outcomes outcomes' : List HandlerOutcome) :
    untilThrow (outcomes ++ outcomes') =
      if ∀ outcome ∈ outcomes, outcome.thrown = none then outcomes ++ untilThrow outcomes'
      else untilThrow outcomes := by
  induction outcomes with
  | nil => simp
  | cons outcome outcomes ih =>
    rw [List.cons_append, untilThrow, untilThrow, ih]
    cases hthrown : outcome.thrown with
    | none =>
      have hrest : (∀ o ∈ outcome :: outcomes, o.thrown = none) ↔
          ∀ o ∈ outcomes, o.thrown = none := by simp [hthrown]
      simp only [hrest, Option.isSome_none, Bool.false_eq_true, if_false]
      split <;> rfl
    | some e =>
      have hthrows : ¬ ∀ o ∈ outcome :: outcomes, o.thrown = none := by simp [hthrown]
      rw [if_neg hthrows]
      rfl

theorem untilThrow_of_forall {outcomes : List HandlerOutcome}
    (h : ∀ outcome ∈ outcomes, outcome.thrown = none) : untilThrow outcomes = outcomes := by
  have happend := untilThrow_append outcomes []
  rwa [List.append_nil, if_pos h, untilThrow, List.append_nil] at happend

/-- A loop that calls handlers without waiting, and what follows it. -/
theorem droppedCalls_bind (outcomes : List HandlerOutcome) (f : Unit → HandlingM Unit)
    (s : List HandlerCall) : droppedCalls ((Exec.forEach outcomes call >>= f).after s) =
      if ∀ outcome ∈ outcomes, outcome.thrown = none then
        droppedCalls ((f ()).after (s ++ outcomes.map fun outcome => ⟨outcome, false⟩))
      else droppedCalls s ++ untilThrow outcomes := by
  have hloop := result_forEach_call outcomes s
  cases hfind : outcomes.findSome? HandlerOutcome.thrown with
  | none =>
    have hall := List.findSome?_eq_none_iff.mp hfind
    rw [hfind, untilThrow_of_forall hall] at hloop
    rw [after_bind_of_ok hloop, if_pos hall]
  | some e =>
    have hnot : ¬ ∀ outcome ∈ outcomes, outcome.thrown = none := fun hall => by
      rw [List.findSome?_eq_none_iff.mpr hall] at hfind
      cases hfind
    have hbind : (Exec.forEach outcomes call >>= f).result s = (.error e,
        s ++ (untilThrow outcomes).map fun outcome => ⟨outcome, false⟩) := by
      rw [result_bind, hloop, hfind]
      rfl
    rw [after_of_result hbind, if_neg hnot, droppedCalls_append, droppedCalls_map]

theorem droppedCalls_forEach (outcomes : List HandlerOutcome) (s : List HandlerCall) :
    droppedCalls ((Exec.forEach outcomes call).after s) =
      droppedCalls s ++ untilThrow outcomes := by
  rw [after_of_result (result_forEach_call outcomes s), droppedCalls_append, droppedCalls_map]

theorem droppedCalls_handleLogon (env : Surroundings) (handlers : RegisteredHandlers) :
    droppedCalls ((handleLogon env handlers).after []) =
      if env.sendError = none then
        untilThrow (handlers.simple .connected ++ handlers.simple .logon)
      else [] := by
  unfold handleLogon
  cases env.sendError with
  | some e => rfl
  | none =>
    change droppedCalls ((Exec.forEach _ call >>= _).after []) = untilThrow _
    rw [droppedCalls_bind, DropsNone.bind (fun _ => dropsNone_throwIfAny _), untilThrow_append,
      droppedCalls_forEach, List.nil_append, droppedCalls_map]
    rfl

theorem droppedCalls_handleLogout (env : Surroundings) (handlers : RegisteredHandlers) :
    droppedCalls ((handleLogout env handlers).after []) =
      if (∀ outcome ∈ handlers.simple .logout, outcome.thrown = none) ∧
          env.listenerError .loggedOut = none then
        handlers.simple .logout ++ untilThrow (handlers.simple .disconnected)
      else untilThrow (handlers.simple .logout) := by
  unfold handleLogout
  rw [droppedCalls_bind]
  by_cases hall : ∀ outcome ∈ handlers.simple .logout, outcome.thrown = none
  · rw [if_pos hall]
    cases env.listenerError .loggedOut with
    | some e =>
      rw [if_neg (by simp), untilThrow_of_forall hall]
      exact droppedCalls_map _
    | none =>
      rw [if_pos ⟨hall, rfl⟩]
      change droppedCalls ((handleDisconnect env handlers).after _) = _
      unfold handleDisconnect
      rw [DropsNone.bind (fun _ => dropsNone_throwIfAny _), droppedCalls_forEach, List.nil_append,
        droppedCalls_map]
  · rw [if_neg hall, if_neg fun h => hall h.1]
    rfl

/-- The calls that are not awaited are those of the handlers that are called without waiting. -/
theorem droppedCalls_handled (env : Surroundings) (handlers : RegisteredHandlers) (m : Message) :
    droppedCalls (handled env handlers m).2 = handlers.dropped env m := by
  change droppedCalls ((handleMessage env handlers m).after []) = _
  unfold handleMessage handleSessionMessage RegisteredHandlers.dropped
  rw [DropsNone.bind fun _ => dropsNone_runMessageHandlers _ _]
  split
  · exact droppedCalls_handleLogon env handlers
  · split
    · exact droppedCalls_handleLogout env handlers
    · split
      · exact dropsNone_throwIfAny _ []
      · rfl

/-- Failures of handlers are contained, exactly if none of the handlers that are called without
waiting rejects. -/
theorem failuresContained_iff (env : Surroundings) (handlers : RegisteredHandlers) (m : Message) :
    FailuresContained env handlers m ↔ NoneRejects env handlers m := by
  have hdropped := droppedCalls_handled env handlers m
  constructor
  · intro h outcome houtcome
    rw [← hdropped, droppedCalls, List.mem_map] at houtcome
    obtain ⟨c, hc, rfl⟩ := houtcome
    obtain ⟨hmem, hawaited⟩ := List.mem_filter.mp hc
    by_contra hrejected
    rw [h.awaited c hmem (Bool.eq_true_of_not_eq_false hrejected)] at hawaited
    cases hawaited
  · intro h
    have hawaited : ∀ c ∈ (handled env handlers m).2, c.outcome.isRejected = true →
        c.awaited = true := by
      intro c hc hrejected
      by_contra hnot
      have hmem : c.outcome ∈ handlers.dropped env m := by
        rw [← hdropped]
        exact List.mem_map_of_mem (List.mem_filter.mpr ⟨hc, by simp [hnot]⟩)
      rw [h c.outcome hmem] at hrejected
      cases hrejected
    refine ⟨fun c hc hfails => ?_, hawaited⟩
    obtain ⟨calls, hcalls, hreports⟩ := reports_handleMessage env handlers m []
    refine hreports ⟨c, ?_, ?_⟩
    · rw [← List.nil_append calls, ← hcalls]
      exact hc
    · rw [HandlerOutcome.fails, Bool.or_eq_true] at hfails
      rw [HandlerCall.caught, Bool.or_eq_true, Bool.and_eq_true]
      exact hfails.imp id fun hrejected => ⟨hawaited c hc hrejected, hrejected⟩

/-- An async logon handler that fails. -/
def failingLogonHandler : RegisteredHandlers :=
  ⟨fun kind => if kind = .logon then [.rejects (js "no such account")] else [], []⟩

/-- Nothing else fails. -/
def calmSurroundings : Surroundings := ⟨none, fun _ => none⟩

/-- A message with the type of a Logon. -/
def bareLogon : Message := Message.empty.setFields [(Fields.msgType, MsgType.logon)]

/-- `handleMessage` resolves, and the rejection of the handler is left unhandled. -/
theorem not_failuresContained_failingLogonHandler :
    (handled calmSurroundings failingLogonHandler bareLogon).1 = .ok () ∧
      ⟨.rejects (js "no such account"), false⟩ ∈
        (handled calmSurroundings failingLogonHandler bareLogon).2 ∧
      ¬ FailuresContained calmSurroundings failingLogonHandler bareLogon := by
  have hcall : ⟨.rejects (js "no such account"), false⟩ ∈
      (handled calmSurroundings failingLogonHandler bareLogon).2 := by decide +kernel
  refine ⟨by decide +kernel, hcall, fun h => ?_⟩
  cases h.awaited _ hcall rfl

/-! ## The sessions of the acceptor -/

/-- A session of the acceptor has as many handlers of each kind. -/
def Mirrors (s : ℕ) (handlers : RegisteredHandlers) (st : AcceptorState) : Prop :=
  ∀ kind, ((st.sessions s).handlers.simple kind).length = (handlers.simple kind).length

/-- Code of the acceptor whose calls of user code meet the given errors ends in the same way as
the code above, and it has met all of them if both succeed. -/
def Follows (s : ℕ) (handlers : RegisteredHandlers) (errors : List (Option JSError))
    (x : AcceptorM Unit) (y : HandlingM Unit) : Prop :=
  ∀ st rest calls, Mirrors s handlers st → st.input.thrown = errors ++ rest →
    Mirrors s handlers (x.after st) ∧ (x.result st).1 = (y.result calls).1 ∧
      ((x.result st).1 = .ok () → (x.after st).input.thrown = rest)

variable {s : ℕ} {handlers : RegisteredHandlers} {errors errors' : List (Option JSError)}
  {x : AcceptorM Unit} {y : HandlingM Unit}

theorem Mirrors.of_setup {st st' : AcceptorState} (h : Mirrors s handlers st)
    (hsetup : SameSetup st st') : Mirrors s handlers st' := by
  intro kind
  rw [(hsetup s).1]
  exact h kind

namespace Follows

theorem bind {f : Unit → AcceptorM Unit} {g : Unit → HandlingM Unit}
    (hx : Follows s handlers errors x y) (hf : Follows s handlers errors' (f ()) (g ())) :
    Follows s handlers (errors ++ errors') (x >>= f) (y >>= g) := by
  intro st rest calls hst hthrown
  rw [List.append_assoc] at hthrown
  obtain ⟨hmirrors, hsame, hmet⟩ := hx st _ calls hst hthrown
  rcases hr : x.result st with ⟨e | u, st'⟩
  · rcases hr' : y.result calls with ⟨e' | u', calls'⟩
    · rw [hr, hr'] at hsame
      rw [after_of_result hr] at hmirrors
      have hbind : (x >>= f).result st = (.error e, st') := by rw [result_bind, hr]
      have hbind' : (y >>= g).result calls = (.error e', calls') := by rw [result_bind, hr']
      obtain rfl := Except.error.inj hsame
      rw [after_of_result hbind, hbind, hbind']
      exact ⟨hmirrors, rfl, fun h => by cases h⟩
    · rw [hr, hr'] at hsame
      cases hsame
  · rcases hr' : y.result calls with ⟨e' | u', calls'⟩
    · rw [hr, hr'] at hsame
      cases hsame
    · have hrest := hmet (by rw [hr])
      rw [after_of_result hr] at hmirrors hrest
      have hbind' : (y >>= g).result calls = (g u').result calls' := by rw [result_bind, hr']
      rw [after_bind_of_ok hr, result_bind, hr, hbind']
      exact hf st' rest calls' hmirrors hrest

/-- Code that calls no user code. -/
theorem silent (hx : ∀ st, Calls 0 st x) : Follows s handlers [] x (pure ()) := by
  intro st rest calls hst hthrown
  have hcalls := hx st
  refine ⟨hst.of_setup hcalls.setup, ?_, fun _ => ?_⟩
  · obtain ⟨_, hu⟩ := hcalls.ok_iff.mpr rfl
    exact hu
  · obtain ⟨u, hu⟩ := hcalls.ok_iff.mpr rfl
    rcases hr : x.result st with ⟨r, st'⟩
    rw [hr] at hu
    obtain rfl : r = .ok u := hu
    rw [after_of_result hr, (hcalls.ok u st' hr).2]
    exact hthrown

theorem silent_bind {f : Unit → AcceptorM Unit} (hx : ∀ st, Calls 0 st x)
    (hf : Follows s handlers errors (f ()) y) : Follows s handlers errors (x >>= f) y :=
  bind (g := fun _ => y) (silent hx) hf

theorem bind_silent {f : Unit → AcceptorM Unit} (hx : Follows s handlers errors x y)
    (hf : ∀ st, Calls 0 st (f ())) : Follows s handlers errors (x >>= f) y := by
  have hbind := bind (g := fun _ => pure ()) hx (silent hf)
  rwa [List.append_nil, bind_pure_unit] at hbind

/-- A call of user code that throws the given error or none. -/
theorem callUser {error : Option JSError} (hy : ∀ calls, (y.result calls).1 =
    error.elim (.ok ()) .error) : Follows s handlers [error] callUser y := by
  intro st rest calls hst hthrown
  rw [List.singleton_append] at hthrown
  have hresult := result_callUser st
  rw [hthrown, List.headD_cons, List.tail_cons] at hresult
  rw [after_of_result hresult, hresult, hy]
  exact ⟨hst, rfl, fun _ => rfl⟩

theorem emit (event : SessionEvent) (error : Option JSError) :
    Follows s handlers [error] (emit s event) (throwIfAny error) :=
  silent_bind (fun _ => calls_observe _) (callUser fun _ => by cases error <;> rfl)

/-- A loop over as many handlers. -/
theorem forEach {hs : List ℕ} {outcomes : List HandlerOutcome}
    (hlength : hs.length = outcomes.length) :
    Follows s handlers (outcomes.map HandlerOutcome.thrown)
      (Exec.forEach hs fun _ => Acceptor.callUser) (Exec.forEach outcomes call) := by
  induction outcomes generalizing hs with
  | nil =>
    obtain rfl := List.eq_nil_of_length_eq_zero hlength
    exact silent fun _ => .pure ()
  | cons outcome outcomes ih =>
    cases hs with
    | nil => cases hlength
    | cons h hs =>
      have hcall : Follows s handlers [outcome.thrown] Acceptor.callUser (call outcome) :=
        callUser fun _ => by cases outcome <;> rfl
      exact bind hcall (ih (Nat.succ.inj hlength))

theorem runHandlers (kind : HandlerKind) :
    Follows s handlers ((handlers.simple kind).map HandlerOutcome.thrown) (runHandlers s kind)
      (Exec.forEach (handlers.simple kind) call) := by
  refine silent_bind (fun _ => calls_observe _) fun st rest calls hst hthrown => ?_
  exact forEach (hst kind) st rest calls hst hthrown

variable (env : Surroundings)

theorem handleDisconnect : Follows s handlers
    ((handlers.simple .disconnected).map HandlerOutcome.thrown ++
      [env.listenerError .disconnect])
    (Acceptor.handleDisconnect s) (Handling.handleDisconnect env handlers) := by
  refine silent_bind (fun _ => calls_updateSession (fun _ => rfl) (fun _ => rfl) fun _ => rfl) ?_
  refine bind (runHandlers .disconnected) ?_
  exact bind_silent (emit .disconnect _) fun _ => calls_removeAllListeners s

/-- `handleLogon` after its response, which could be sent. -/
theorem afterLogonResponse (hsent : env.sendError = none) : Follows s handlers
    ((handlers.simple .connected).map HandlerOutcome.thrown ++
      ((handlers.simple .logon).map HandlerOutcome.thrown ++ [env.listenerError .loggedOn]))
    (Acceptor.afterLogonResponse s env.sendError) (handleLogon env handlers) := by
  unfold Acceptor.afterLogonResponse handleLogon
  rw [hsent]
  change Follows s handlers _ _ (Exec.forEach (handlers.simple .connected) call >>= _)
  exact bind (runHandlers .connected) (bind (runHandlers .logon) (emit .loggedOn _))

theorem handleLogout : Follows s handlers
    ((handlers.simple .logout).map HandlerOutcome.thrown ++ ([env.listenerError .loggedOut] ++
      ((handlers.simple .disconnected).map HandlerOutcome.thrown ++
        [env.listenerError .disconnect])))
    (Acceptor.handleLogout s) (Handling.handleLogout env handlers) := by
  refine bind (runHandlers .logout) ?_
  refine silent_bind (fun _ => calls_updateSession (fun _ => rfl) (fun _ => rfl) fun _ => rfl) ?_
  refine bind (emit .loggedOut _) (bind_silent (handleDisconnect env) fun st => ?_)
  exact (Calls.get_bind (calls_endSocket _)).bind fun _ _ _ => calls_removeId s

end Follows

end Handling

end NestQuickfix.Acceptor
