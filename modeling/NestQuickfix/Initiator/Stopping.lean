import NestQuickfix.Initiator.LoggingOn

/-!
# Stopping an initiator

`stop` clears the latest timer, logs out and destroys the socket. A start that is still under way
may fail afterwards and set a new timer, and `logout` throws if the session is
DISCONNECTED. It is said here for which runs a `stop` that has settled is the end of all attempts
to connect.
-/

namespace NestQuickfix.Initiator

open Lib Lib.Exec Acceptor

/-! ## Sockets that are destroyed -/

section Manager

variable {m : AcceptorState} {a : Act} {A : Set Act} {α : Type}

theorem destroyed_withSocketAs {f : Connection → Connection}
    (hf : ∀ x, (f x).destroyed = x.destroyed) (m : AcceptorState) (c c' : ℕ) :
    ((m.withSocketAs c f).sockets c').destroyed = (m.sockets c').destroyed := by
  unfold AcceptorState.withSocketAs
  dsimp only
  by_cases h : c' = c
  · subst h
    rw [Function.update_self, hf]
  · rw [Function.update_of_ne h]

/-- Only destroying a socket and connecting it matter. -/
theorem destroyed_apply (hdestroy : ∀ c, a ≠ .destroy c) (hconnect : ∀ r, a ≠ .connect r)
    (m : AcceptorState) (c : ℕ) :
    ((a.apply m).sockets c).destroyed = (m.sockets c).destroyed := by
  cases h : a.changesSockets with
  | false => rw [(sameSockets_apply h m).sockets]
  | true =>
    cases a with
    | destroy c => exact absurd rfl (hdestroy c)
    | connect r => exact absurd rfl (hconnect r)
    | strip _ | endSocket _ | listen _ _ | close _ =>
      unfold Act.apply
      dsimp only
      rw [destroyed_withSocketAs]
      exact fun _ => rfl
    | forget _ | setClosing _ | shut => rfl
    | _ => cases h

/-- A destroyed socket stays destroyed if it is not connected anew. -/
theorem destroyed_of_apply (hconnect : ∀ r, a ≠ .connect r) {c : ℕ}
    (h : (m.sockets c).destroyed = true) : ((a.apply m).sockets c).destroyed = true := by
  by_cases hdestroy : ∀ x, a ≠ .destroy x
  · rwa [destroyed_apply hdestroy hconnect]
  · push Not at hdestroy
    obtain ⟨x, rfl⟩ := hdestroy
    unfold Act.apply AcceptorState.withSocketAs
    dsimp only
    by_cases hx : c = x
    · subst hx
      rw [Function.update_self]
    · rwa [Function.update_of_ne hx]

/-- Code that neither destroys nor connects sockets. -/
theorem destroyed_of_performs {x : AcceptorM α} (hx : Performs A m x)
    (hdestroy : ∀ c, .destroy c ∉ A) (hconnect : ∀ r, .connect r ∉ A) (c : ℕ) :
    ((x.after m).sockets c).destroyed = (m.sockets c).destroyed := by
  refine Path.eq_of (f := fun m : AcceptorState => (m.sockets c).destroyed)
    (fun m a ha => destroyed_apply ?_ ?_ m c) hx
  · rintro c rfl
    exact hdestroy c ha
  · rintro r rfl
    exact hconnect r ha

theorem destroyed_startSend (s : ℕ) (message : Message) (m : AcceptorState) (c : ℕ) :
    (((startSend s message).after m).sockets c).destroyed = (m.sockets c).destroyed := by
  refine destroyed_of_performs (performs_startSend s message fun _ => id) (fun c ha => ?_)
    (fun r ha => ?_) c <;> rcases ha with ha | ⟨_, _, ha⟩ <;> cases ha

theorem destroyed_afterLogoutSent (s : ℕ) (m : AcceptorState) (c : ℕ) :
    (((afterLogoutSent s).after m).sockets c).destroyed = (m.sockets c).destroyed := by
  refine destroyed_of_performs (performs_afterLogoutSent s fun _ => id) (fun c ha => ?_)
    (fun r ha => ?_) c <;>
  rcases ha with ((ha | ha) | ha | ha) | (ha | ha | ha | ⟨_, ha⟩) | ⟨_, ha | ha⟩ <;> cases ha

/-- The events of a session connect no socket anew. -/
theorem destroyed_perform {e : Event} (he : isSessionEvent e = true) {c : ℕ}
    (h : (m.sockets c).destroyed = true) : (((perform e).after m).sockets c).destroyed = true := by
  refine Path.keeps (P := fun m : AcceptorState => (m.sockets c).destroyed = true)
    (fun m' a _ ha hm => destroyed_of_apply ?_ hm) (performs_perform e) h
  rintro r rfl
  obtain rfl : e = .connect r := causedBy_of_mem (e := e) ha
  cases he

end Manager

/-! ## Code that leaves the attempts alone -/

/-- No attempt to connect begins, none is planned or given up, and the socket is destroyed
afterwards exactly if it was destroyed before. -/
structure SameAttempts (st st' : InitiatorState) : Prop where
  config : st'.config = st.config
  starts : st'.starts = st.starts
  reconnectAttempts : st'.reconnectAttempts = st.reconnectAttempts
  timers : st'.timers = st.timers
  nextTimer : st'.nextTimer = st.nextTimer
  destroyed : (st'.manager.sockets 0).destroyed = (st.manager.sockets 0).destroyed

variable {α : Type} {st st' st'' : InitiatorState} {n : ℕ}

namespace SameAttempts

theorem refl (st : InitiatorState) : SameAttempts st st := ⟨rfl, rfl, rfl, rfl, rfl, rfl⟩

theorem trans (h : SameAttempts st st') (h' : SameAttempts st' st'') : SameAttempts st st'' :=
  ⟨h'.config.trans h.config, h'.starts.trans h.starts,
    h'.reconnectAttempts.trans h.reconnectAttempts, h'.timers.trans h.timers,
    h'.nextTimer.trans h.nextTimer, h'.destroyed.trans h.destroyed⟩

end SameAttempts

theorem sameAttempts_onManager {x : AcceptorM α}
    (hx : ∀ m, ((x.after m).sockets 0).destroyed = (m.sockets 0).destroyed) :
    Ensures SameAttempts (onManager x) := by
  intro st
  unfold after
  rw [result_onManager]
  exact ⟨rfl, rfl, rfl, rfl, rfl, hx st.manager⟩

theorem sameAttempts_note (o : InitiatorObservation) : Ensures SameAttempts (note o) :=
  .modify fun _ => ⟨rfl, rfl, rfl, rfl, rfl, rfl⟩

theorem sameAttempts_announce (o : InitiatorObservation) : Ensures SameAttempts (announce o) :=
  .bind .trans (sameAttempts_note o) fun _ => sameAttempts_onManager fun m =>
    destroyed_of_performs (A := {.consume}) (performs_callUser rfl) (fun _ ha => by cases ha)
      (fun _ ha => by cases ha) 0

/-- The listeners of an event are called, and the call fails if they throw. -/
theorem result_announce (o : InitiatorObservation) (st : InitiatorState) :
    (∃ u, ((announce o).result st).1 = .ok u) ↔ st.manager.input.calmFor 1 = true := by
  have hresult : (announce o).result st =
      (onManager callUser).result { st with trace := st.trace ++ [o] } := by
    unfold announce note
    rw [result_bind, result_modify]
  rw [hresult, result_onManager]
  exact calls_callUser.ok_iff

theorem sameAttempts_settleStart (k : ℕ) (caller : StartCaller) (result : Except JSError Unit) :
    Ensures SameAttempts (settleStart k caller result) := by
  cases result with
  | ok => exact sameAttempts_note _
  | error e =>
    refine .bind .trans (sameAttempts_note _) fun _ => ?_
    cases caller with
    | user => exact .pure .refl ()
    | timer => exact .bind .trans (.attempt (sameAttempts_announce _)) fun _ => .pure .refl ()

/-! ## Failures that are observed -/

/-- Whether a `start` has failed. -/
def InitiatorObservation.isFailure : InitiatorObservation → Bool
  | .failed _ => true
  | _ => false

/-- How many starts have failed. -/
def InitiatorState.failures (st : InitiatorState) : ℕ :=
  st.trace.countP InitiatorObservation.isFailure

/-- How often MAX_RECONNECT_ATTEMPTS has been emitted. -/
def InitiatorState.reports (st : InitiatorState) : ℕ := st.trace.count .maxReconnectAttempts

/-- Nothing waits that has not waited before, and a number of failures and reports are added. -/
structure Adds (failures reports : ℕ) (st st' : InitiatorState) : Prop where
  waiting : st'.waiting = st.waiting
  failures : st'.failures = st.failures + failures
  reports : st'.reports = st.reports + reports

theorem Adds.trans {a b a' b' : ℕ} (h : Adds a b st st') (h' : Adds a' b' st' st'') :
    Adds (a + a') (b + b') st st'' :=
  ⟨h'.waiting.trans h.waiting, by rw [h'.failures, h.failures, Nat.add_assoc],
    by rw [h'.reports, h.reports, Nat.add_assoc]⟩

theorem adds_onManager (x : AcceptorM α) : Ensures (Adds 0 0) (onManager x) := by
  intro st
  unfold after
  rw [result_onManager]
  exact ⟨rfl, rfl, rfl⟩

theorem adds_note (o : InitiatorObservation) (st : InitiatorState) :
    Adds (if o.isFailure then 1 else 0) (if o = .maxReconnectAttempts then 1 else 0) st
      ((note o).after st) := by
  have htrace : ((note o).after st).trace = st.trace ++ [o] := rfl
  refine ⟨rfl, ?_, ?_⟩
  · rw [InitiatorState.failures, htrace, List.countP_append, List.countP_singleton]
    rfl
  · rw [InitiatorState.reports, htrace, List.count_append, List.count_singleton]
    simp [InitiatorState.reports]

theorem adds_announce (o : InitiatorObservation) (st : InitiatorState) :
    Adds (if o.isFailure then 1 else 0) (if o = .maxReconnectAttempts then 1 else 0) st
      ((announce o).after st) := by
  have hafter : (announce o).after st = (onManager callUser).after ((note o).after st) :=
    after_bind_of_ok (result_modify _ st)
  rw [hafter]
  exact (adds_note o st).trans (adds_onManager callUser _)

theorem adds_settleStart (k : ℕ) (caller : StartCaller) (result : Except JSError Unit) :
    Ensures (Adds 0 0) (settleStart k caller result) := by
  cases result with
  | ok => exact adds_note (.settled k none)
  | error e =>
    refine .bind Adds.trans (adds_note (.settled k (some e))) fun _ => ?_
    cases caller with
    | user => exact .pure (fun _ => ⟨rfl, rfl, rfl⟩) ()
    | timer =>
      exact .bind Adds.trans (.attempt (adds_announce (.reconnectFailed e))) fun _ =>
        .pure (fun _ => ⟨rfl, rfl, rfl⟩) ()

/-! ## Starts that fail -/

/-- Whether a start that fails sets a timer: the listeners of the error do not throw, and
there are attempts left. -/
def InitiatorState.retries (st : InitiatorState) : Bool :=
  st.manager.input.calmFor 1 && st.config.reconnects &&
    decide (st.reconnectAttempts < st.config.reconnect.elim 3 ReconnectConfig.maxAttempts)

/-- One more timer is set. -/
def InitiatorState.withTimer (st : InitiatorState) : InitiatorState :=
  { st with
    timers := st.timers ++ [st.nextTimer]
    nextTimer := st.nextTimer + 1
    reconnectTimer := some st.nextTimer }

/-- Whether a start that fails is the last one, which it reports. -/
def InitiatorState.givesUp (st : InitiatorState) : Bool :=
  st.manager.input.calmFor 1 && st.config.reconnects &&
    decide (st.config.reconnect.elim 3 ReconnectConfig.maxAttempts ≤ st.reconnectAttempts)

/-- A failure sets a timer, or reports that it is the last one, or does nothing to the
attempts. -/
theorem after_handleFailure (e : JSError) (st : InitiatorState) : ∃ st1, SameAttempts st st1 ∧
    Adds 1 (if st.givesUp then 1 else 0) st st1 ∧
    (handleFailure e).after st = if st.retries then st1.withTimer else st1 := by
  have hsame := sameAttempts_announce (.failed e) st
  have hadds : Adds 1 0 st ((announce (.failed e)).after st) := adds_announce (.failed e) st
  have hcalm := result_announce (.failed e) st
  unfold handleFailure
  rcases hr : (announce (.failed e)).result st with ⟨error | u, st1⟩
  · rw [after_of_result hr] at hsame hadds
    have hthrown : st.manager.input.calmFor 1 = false := by
      rw [hr] at hcalm
      simpa using hcalm
    rw [after_bind_of_error hr, InitiatorState.retries, InitiatorState.givesUp, hthrown,
      Bool.false_and, Bool.false_and, Bool.false_and]
    exact ⟨st1, hsame, hadds, rfl⟩
  · rw [after_of_result hr] at hsame hadds
    have hcalm : st.manager.input.calmFor 1 = true := hcalm.mp ⟨u, by rw [hr]⟩
    rw [after_bind_of_ok hr, after_bind_of_ok (result_get st1), hsame.config,
      InitiatorState.retries, InitiatorState.givesUp, hcalm, Bool.true_and]
    cases hreconnects : st.config.reconnects with
    | false => exact ⟨st1, hsame, hadds, rfl⟩
    | true =>
      rw [if_pos rfl, Bool.true_and, Bool.true_and, scheduleReconnect,
        after_bind_of_ok (result_get st1), hsame.config, hsame.reconnectAttempts]
      by_cases hmax : st.config.reconnect.elim 3 ReconnectConfig.maxAttempts ≤
          st.reconnectAttempts
      · refine ⟨_, hsame.trans (sameAttempts_announce .maxReconnectAttempts st1), ?_, ?_⟩
        · rw [if_pos (decide_eq_true hmax)]
          exact hadds.trans (adds_announce .maxReconnectAttempts st1)
        · rw [if_pos hmax, if_neg (by simpa using hmax)]
      · refine ⟨st1, hsame, ?_, ?_⟩
        · rw [if_neg (by simpa using hmax)]
          exact hadds
        · rw [if_neg hmax, if_pos (by simpa using hmax)]
          rfl

/-- The end of a start that fails. -/
theorem after_finishStart (k : ℕ) (caller : StartCaller) (e : JSError) (st : InitiatorState) :
    ∃ st1, SameAttempts st st1 ∧
      SameAttempts (if st.retries then st1.withTimer else st1)
        ((finishStart k caller (.error e)).after st) ∧
      Adds 1 (if st.givesUp then 1 else 0) st ((finishStart k caller (.error e)).after st) := by
  obtain ⟨st1, hsame, hadds, hafter⟩ := after_handleFailure e st
  have hattempt : (attempt (handleFailure e)).result st =
      (.ok ((handleFailure e).result st).1, (handleFailure e).after st) := result_attempt _ _
  have hfails : Adds 1 (if st.givesUp then 1 else 0) st ((handleFailure e).after st) := by
    rw [hafter]
    cases st.retries with
    | false => exact hadds
    | true => exact ⟨hadds.waiting, hadds.failures, hadds.reports⟩
  refine ⟨st1, hsame, ?_⟩
  unfold finishStart
  rw [after_bind_of_ok hattempt]
  refine ⟨?_, hfails.trans (adds_settleStart k caller _ _)⟩
  rw [← hafter]
  exact sameAttempts_settleStart k caller _ _

/-! ## The end of all attempts -/

/-- There have been `n` calls of `start`, the socket is destroyed, and no timer is set. -/
structure Halted (n : ℕ) (st : InitiatorState) : Prop where
  starts : st.starts = n
  destroyed : (st.manager.sockets 0).destroyed = true
  timers : st.timers = []

namespace Halted

theorem iff_of_same (h : SameAttempts st st') : Halted n st' ↔ Halted n st := by
  constructor
  · rintro ⟨hstarts, hdestroyed, htimers⟩
    exact ⟨h.starts ▸ hstarts, h.destroyed ▸ hdestroyed, h.timers ▸ htimers⟩
  · rintro ⟨hstarts, hdestroyed, htimers⟩
    exact ⟨h.starts.trans hstarts, h.destroyed.trans hdestroyed, h.timers.trans htimers⟩

theorem keeps_of_same {x : InitiatorM α} (hx : Ensures SameAttempts x) : Keeps (Halted n) x :=
  hx.keeps fun _ _ hsame h => (iff_of_same hsame).mpr h

theorem keeps_onManager {x : AcceptorM α} (hx : ∀ m, (m.sockets 0).destroyed = true →
    ((x.after m).sockets 0).destroyed = true) : Keeps (Halted n) (onManager x) := by
  refine .of_after fun st h => ?_
  unfold after
  rw [result_onManager]
  exact ⟨h.starts, hx st.manager h.destroyed, h.timers⟩

theorem keeps_modify {f : InitiatorState → InitiatorState}
    (hf : ∀ st, (f st).manager = st.manager ∧ (f st).starts = st.starts ∧
      (f st).timers ⊆ st.timers) : Keeps (Halted n) (modify f : InitiatorM Unit) := by
  refine .modify fun st h => ?_
  obtain ⟨hmanager, hstarts, htimers⟩ := hf st
  exact ⟨hstarts.trans h.starts, hmanager ▸ h.destroyed,
    List.subset_nil.mp (h.timers ▸ htimers)⟩

theorem keeps_socketConnect : Keeps (Halted n) socketConnect :=
  keeps_modify fun _ => ⟨rfl, rfl, List.Subset.refl _⟩

theorem destroyed_updateSocket {f : Connection → Connection} {m : AcceptorState}
    (hf : ∀ x, x.destroyed = true → (f x).destroyed = true)
    (h : (m.sockets 0).destroyed = true) :
    (((updateSocket 0 f).after m).sockets 0).destroyed = true := by
  have hafter : (updateSocket 0 f).after m = m.withSocketAs 0 f := rfl
  rw [hafter, AcceptorState.withSocketAs]
  dsimp only
  rw [Function.update_self]
  exact hf _ h

theorem keeps_socketError (e : JSError) : Keeps (Halted n) (socketError e) := by
  refine .bind (keeps_get_bind fun st _ => ?_) fun _ =>
    keeps_onManager fun _ => destroyed_updateSocket fun _ _ => rfl
  split
  · exact keeps_modify fun _ => ⟨rfl, rfl, List.Subset.refl _⟩
  · exact keeps_of_same (sameAttempts_note _)

/-- A `stop` that waits for its Logout does not begin anything either. -/
theorem keeps_stop : Keeps (Halted n) stop := by
  refine .bind (keeps_modify fun _ => ⟨rfl, rfl, List.filter_sublist.subset⟩) fun _ =>
    keeps_get_bind fun st _ => ?_
  split
  · exact .pure fun _ => id
  · refine .bind (keeps_onManager fun _ => id) fun _ => .bind (keeps_onManager fun m h => ?_)
      fun error => keeps_modify fun _ => ⟨rfl, rfl, List.Subset.refl _⟩
    rwa [destroyed_startSend]

/-- Only a timer makes a failing start begin anew. -/
theorem finishStart_iff (h : Halted n st) (k : ℕ) (caller : StartCaller) (e : JSError) :
    Halted n ((finishStart k caller (.error e)).after st) ↔ st.retries = false := by
  obtain ⟨st1, hsame, hafter, -⟩ := after_finishStart k caller e st
  rw [iff_of_same hafter]
  cases st.retries with
  | false => exact iff_of_true ((iff_of_same hsame).mpr h) rfl
  | true =>
    refine iff_of_false (fun hhalted => ?_) (by simp)
    have htimers : st1.timers ++ [st1.nextTimer] = [] := hhalted.timers
    simp at htimers

end Halted

/-- The end of a `stop`: a `logout` that comes to its end lets it destroy the socket. -/
theorem after_logoutSent (error : Option JSError) (st : InitiatorState) :
    ((resume (.logoutSent error)).after st).starts = st.starts ∧
      ((resume (.logoutSent error)).after st).timers = st.timers ∧
      (((resume (.logoutSent error)).after st).manager.sockets 0).destroyed =
        ((st.manager.sockets 0).destroyed ||
          st.manager.input.calmFor (2 + st.manager.disconnectCalls 0)) := by
  have hlogout := sameAttempts_onManager (x := afterLogoutSent 0)
    (fun m => destroyed_afterLogoutSent 0 m 0) st
  have hcalm : (∃ u, ((afterLogoutSent 0).result st.manager).1 = .ok u) ↔
      st.manager.input.calmFor (2 + st.manager.disconnectCalls 0) = true :=
    (calls_afterLogoutSent 0).ok_iff
  have hresult : ((onManager (afterLogoutSent 0)).result st).1 =
      ((afterLogoutSent 0).result st.manager).1 := by rw [result_onManager]
  rw [← hresult] at hcalm
  unfold resume
  rcases hr : (onManager (afterLogoutSent 0)).result st with ⟨e | u, st1⟩
  · rw [after_of_result hr] at hlogout
    have hthrown : st.manager.input.calmFor (2 + st.manager.disconnectCalls 0) = false := by
      rw [hr] at hcalm
      simpa using hcalm
    have hattempt : (attempt (onManager (afterLogoutSent 0))).result st =
        (.ok (.error e), st1) := by rw [result_attempt, hr]
    rw [after_bind_of_ok hattempt, hthrown, Bool.or_false]
    exact ⟨hlogout.starts, hlogout.timers, hlogout.destroyed⟩
  · rw [after_of_result hr] at hlogout
    have hcalm := hcalm.mp ⟨u, by rw [hr]⟩
    have hattempt : (attempt (onManager (afterLogoutSent 0))).result st =
        (.ok (.ok u), st1) := by rw [result_attempt, hr]
    have hdestroy : (onManager (destroy 0)).result st1 = (.ok (), { st1 with
        manager := st1.manager.withSocketAs 0 fun x => { x with destroyed := true }
        listeners := if ((st1.manager.withSocketAs 0 fun x =>
          { x with destroyed := true }).sockets 0).dataListener then st1.listeners else [] }) :=
      result_onManager _ _
    rw [after_bind_of_ok hattempt, hcalm, Bool.or_true]
    dsimp only
    rw [after_bind_of_ok hdestroy]
    have hstopped := sameAttempts_announce .stopped { st1 with
      manager := st1.manager.withSocketAs 0 fun x => { x with destroyed := true }
      listeners := if ((st1.manager.withSocketAs 0 fun x =>
        { x with destroyed := true }).sockets 0).dataListener then st1.listeners else [] }
    refine ⟨hstopped.starts.trans hlogout.starts, hstopped.timers.trans hlogout.timers,
      hstopped.destroyed.trans ?_⟩
    simp [AcceptorState.withSocketAs]

/-! ## Calls of stop that settle -/

/-- An initiator, and the number of calls of `start` when a `stop` last settled; a user who
calls `start` takes the `stop` back. -/
structure WatchedInitiator where
  initiator : InitiatorState
  stoppedAt : Option ℕ

/-- A call ends with the promise of a `stop`: the `logout` throws at once, or the rest of it is
done after its Logout. -/
def InitiatorState.settlesStop (st : InitiatorState) : InitiatorCall → Bool
  | .stop => st.session.state = .disconnected
  | .resume i =>
    match st.waiting[i]? with
    | some (.logoutSent _) => true
    | _ => false
  | _ => false

/-- What is watched after an event. -/
def WatchedInitiator.after (w : WatchedInitiator) (e : InitiatorStep) (st : InitiatorState) :
    WatchedInitiator where
  initiator := st
  stoppedAt :=
    match e.call with
    | .start => none
    | call => if w.initiator.settlesStop call then some st.starts else w.stoppedAt

/-- A new initiator that nobody has stopped. -/
def WatchedInitiator.new (config : StartConfig) : WatchedInitiator := ⟨.new config, none⟩

/-- An initiator whose calls of `stop` are watched. -/
def watchedInitiator : System WatchedInitiator InitiatorStep where
  init w := ∃ config, w = .new config
  step w e := (startedInitiator.step w.initiator e).map (w.after e)

/-- After a `stop` that has settled no `connect` has been started, the socket is destroyed, and no
timer is set. -/
def StaysStopped (w : WatchedInitiator) : Prop := ∀ n ∈ w.stoppedAt, Halted n w.initiator

instance (n : ℕ) (st : InitiatorState) : Decidable (Halted n st) :=
  decidable_of_iff (st.starts = n ∧ (st.manager.sockets 0).destroyed = true ∧ st.timers = [])
    ⟨fun h => ⟨h.1, h.2.1, h.2.2⟩, fun h => ⟨h.starts, h.destroyed, h.timers⟩⟩

/-- A `stop` that goes on after its Logout finds no timer, and destroys the socket unless that
has been done; a start that fails after a `stop` sets no timer. -/
def Waiting.StopsCleanly (w : WatchedInitiator) (e : InitiatorStep) : Waiting → Prop
  | .logoutSent _ => w.initiator.timers = [] ∧
      ((w.initiator.manager.sockets 0).destroyed = true ∨
        e.input.calmFor (2 + w.initiator.manager.disconnectCalls 0) = true)
  | .connected .. => w.stoppedAt ≠ none → (w.initiator.meets e).retries = false
  | _ => True

/-- What a `stop` and the starts that it leaves behind need. A `stop` whose `logout` throws at
once only clears the latest timer. -/
def StopsCleanly (w : WatchedInitiator) (e : InitiatorStep) : Prop :=
  match e.call with
  | .stop => w.initiator.session.state = .disconnected →
      (w.initiator.manager.sockets 0).destroyed = true ∧
        ∀ id ∈ w.initiator.timers, some id = w.initiator.reconnectTimer
  | .resume i => ∀ task ∈ w.initiator.waiting[i]?, task.StopsCleanly w e
  | _ => True

instance (w : WatchedInitiator) (e : InitiatorStep) (task : Waiting) :
    Decidable (task.StopsCleanly w e) :=
  match task with
  | .logoutSent _ => inferInstanceAs (Decidable (_ ∧ (_ ∨ _)))
  | .connected .. => inferInstanceAs (Decidable (_ → _))
  | .connecting .. => .isTrue trivial
  | .logonSent .. => .isTrue trivial

instance (w : WatchedInitiator) (e : InitiatorStep) : Decidable (StopsCleanly w e) :=
  match e with
  | ⟨.stop, _⟩ => inferInstanceAs (Decidable (_ → _ ∧ ∀ id ∈ w.initiator.timers, _))
  | ⟨.resume i, input⟩ => inferInstanceAs (Decidable (∀ task ∈ w.initiator.waiting[i]?,
      task.StopsCleanly w ⟨.resume i, input⟩))
  | ⟨.start, _⟩ | ⟨.socketConnect, _⟩ | ⟨.socketError _, _⟩ | ⟨.socketClose, _⟩
  | ⟨.timer _, _⟩ | ⟨.session _, _⟩ => .isTrue trivial

theorem initiator_of_reached {guard : WatchedInitiator → InitiatorStep → Prop}
    {w : WatchedInitiator} (h : watchedInitiator.Reached guard w) :
    startedInitiator.Reached (fun _ _ => True) w.initiator := by
  induction h with
  | init hinit =>
    obtain ⟨config, rfl⟩ := hinit
    exact .init ⟨config, rfl⟩
  | step _ _ hstep ih =>
    obtain ⟨st, hst, rfl⟩ := Option.map_eq_some_iff.mp hstep
    exact .step ih trivial hst

/-! ## Steps -/

theorem Halted.meets (h : Halted n st) (e : InitiatorStep) : Halted n (st.meets e) :=
  ⟨h.starts, h.destroyed, h.timers⟩

theorem Halted.taken (h : Halted n st) (i : ℕ) : Halted n (st.taken i) :=
  ⟨h.starts, h.destroyed, h.timers⟩

/-- A `stop` of a DISCONNECTED session does nothing but to clear the latest timer. -/
theorem after_stop (h : st.session.state = .disconnected) : stop.after st =
    { st with timers := st.timers.filter fun id => some id ≠ st.reconnectTimer } := by
  unfold stop
  rw [after_bind_of_ok (result_modify _ _), after_bind_of_ok (result_get _)]
  exact congrArg (fun x : InitiatorM Unit => x.after _) (if_pos h)

/-- A start whose `connect` has settled fails. -/
theorem after_resume_connecting (h : Offline st.manager) (k : ℕ) (caller : StartCaller)
    (result : Except JSError Unit) : ∃ e, (resume (.connected k caller result)).after st =
      (finishStart k caller (.error e)).after st := by
  cases result with
  | error e => exact ⟨e, rfl⟩
  | ok u => exact ⟨_, after_resume_connected h k caller⟩

section Step

variable {w w' : WatchedInitiator} {e : InitiatorStep}
  {guard : InitiatorState → InitiatorStep → Prop}

/-- The promise of a `stop` settles. -/
theorem staysStopped_of_settles (h : w.initiator.settlesStop e.call = true) :
    StaysStopped (w.after e st) ↔ Halted st.starts st := by
  rcases e with ⟨call, input⟩
  cases call with
  | start => cases h
  | _ =>
    unfold StaysStopped WatchedInitiator.after
    dsimp only at h ⊢
    rw [if_pos h]
    simp

/-- What has been stopped must not go on. -/
theorem staysStopped_of_not_settles (hcall : e.call ≠ .start)
    (h : w.initiator.settlesStop e.call = false) :
    StaysStopped (w.after e st) ↔ ∀ n ∈ w.stoppedAt, Halted n st := by
  rcases e with ⟨call, input⟩
  cases call with
  | start => exact absurd rfl hcall
  | _ =>
    unfold StaysStopped WatchedInitiator.after
    dsimp only at h ⊢
    rw [h, if_neg Bool.false_ne_true]

/-- Only the end of its Logout ends a `stop`. -/
theorem settlesStop_resume {i : ℕ} : st.settlesStop (.resume i) = true ↔
    ∃ error, st.waiting[i]? = some (.logoutSent error) := by
  unfold InitiatorState.settlesStop
  dsimp only
  split
  · next error h => exact iff_of_true rfl ⟨error, h⟩
  · next h => exact iff_of_false Bool.false_ne_true fun ⟨error, heq⟩ => h error heq

/-- The tasks that can go on: starts whose `connect` has settled, and calls of `stop`. -/
theorem staysStopped_resume_iff (hreached : startedInitiator.Reached guard w.initiator)
    (hw : StaysStopped w) {i : ℕ} {input : Input}
    (hstep : startedInitiator.step w.initiator ⟨.resume i, input⟩ = some st) :
    StaysStopped (w.after ⟨.resume i, input⟩ st) ↔ StopsCleanly w ⟨.resume i, input⟩ := by
  obtain ⟨henabled, rfl⟩ := step_eq_some hstep
  obtain ⟨hoffline, hwaiting, _⟩ := (unstarted_of_reached hreached).meets ⟨.resume i, input⟩
  obtain ⟨task, htask, hwait⟩ := task_of_enabled henabled
  have hafter : (resumeWaiting i).after (w.initiator.meets ⟨.resume i, input⟩) =
      (resume task).after ((w.initiator.meets ⟨.resume i, input⟩).taken i) :=
    after_resumeWaiting htask
  have hcond : StopsCleanly w ⟨.resume i, input⟩ ↔ task.StopsCleanly w ⟨.resume i, input⟩ := by
    unfold StopsCleanly
    dsimp only
    rw [htask]
    simp
  rw [hcond]
  cases task with
  | connecting k caller => exact absurd rfl hwait
  | logonSent k caller error =>
    exact absurd (List.mem_of_getElem? htask) (hwaiting k caller error)
  | connected k caller result =>
    have htaken : Offline ((w.initiator.meets ⟨.resume i, input⟩).taken i).manager := hoffline
    obtain ⟨error, hfails⟩ := after_resume_connecting htaken k caller result
    have hsettles : w.initiator.settlesStop (.resume i) = false := by
      rw [Bool.eq_false_iff, ne_eq, settlesStop_resume, htask]
      simp
    rw [staysStopped_of_not_settles (by simp) hsettles]
    unfold performCall
    dsimp only
    rw [hafter]
    cases hstopped : w.stoppedAt with
    | none => exact iff_of_true (fun _ hn => by cases hn) fun hne => absurd hstopped hne
    | some n =>
      have hiff := (((hw n hstopped).meets ⟨.resume i, input⟩).taken i).finishStart_iff
        k caller error
      rw [← hfails] at hiff
      refine ⟨fun h _ => hiff.mp (h n rfl), fun h m hm => ?_⟩
      obtain rfl := Option.some.inj hm
      exact hiff.mpr (h (by simp [hstopped]))
  | logoutSent error =>
    rw [staysStopped_of_settles (settlesStop_resume.mpr ⟨error, htask⟩)]
    unfold performCall
    dsimp only
    rw [hafter]
    obtain ⟨_, htimers, hdestroyed⟩ := after_logoutSent error
      ((w.initiator.meets ⟨.resume i, input⟩).taken i)
    constructor
    · intro h
      exact ⟨htimers ▸ h.timers, Bool.or_eq_true_iff.mp (hdestroyed ▸ h.destroyed)⟩
    · rintro ⟨hnone, hends⟩
      exact ⟨rfl, hdestroyed.trans (Bool.or_eq_true_iff.mpr hends), htimers.trans hnone⟩

/-- A call of `stop`, which settles at once if the session is DISCONNECTED. -/
theorem staysStopped_stop_iff (hw : StaysStopped w) {input : Input}
    (hstep : startedInitiator.step w.initiator ⟨.stop, input⟩ = some st) :
    StaysStopped (w.after ⟨.stop, input⟩ st) ↔ StopsCleanly w ⟨.stop, input⟩ := by
  obtain ⟨-, rfl⟩ := step_eq_some hstep
  unfold StopsCleanly performCall
  dsimp only
  by_cases hstate : w.initiator.session.state = .disconnected
  · have hmeets : (w.initiator.meets ⟨.stop, input⟩).session.state = .disconnected := hstate
    have hsettles : w.initiator.settlesStop .stop = true := decide_eq_true hstate
    rw [staysStopped_of_settles hsettles, after_stop hmeets]
    constructor
    · intro h _
      refine ⟨h.destroyed, fun id hid => ?_⟩
      by_contra hne
      exact List.filter_eq_nil_iff.mp h.timers id hid (decide_eq_true hne)
    · intro h
      obtain ⟨hdestroyed, htimers⟩ := h hstate
      refine ⟨rfl, hdestroyed, List.filter_eq_nil_iff.mpr fun id hid hne => ?_⟩
      exact of_decide_eq_true hne (htimers id hid)
  · have hsettles : w.initiator.settlesStop .stop = false := decide_eq_false hstate
    rw [staysStopped_of_not_settles (by simp) hsettles]
    refine iff_of_true (fun n hn => ?_) fun h => absurd h hstate
    exact Halted.keeps_stop.after ((hw n hn).meets _)

/-- Every other event keeps what has been stopped as it is. -/
theorem staysStopped_of_keeps (hw : StaysStopped w) (hcall : e.call ≠ .start)
    (hsettles : w.initiator.settlesStop e.call = false)
    (hkeeps : ∀ n, Keeps (Halted n) (performCall e.call))
    (hstep : startedInitiator.step w.initiator e = some st) : StaysStopped (w.after e st) := by
  obtain ⟨-, rfl⟩ := step_eq_some hstep
  rw [staysStopped_of_not_settles hcall hsettles]
  exact fun n hn => (hkeeps n).after ((hw n hn).meets e)

/-- A step leaves everything stopped exactly when it meets the condition. -/
theorem staysStopped_iff (hreached : startedInitiator.Reached guard w.initiator)
    (hw : StaysStopped w) (hstep : watchedInitiator.step w e = some w') :
    StaysStopped w' ↔ StopsCleanly w e := by
  obtain ⟨st, hst, rfl⟩ := Option.map_eq_some_iff.mp hstep
  rcases e with ⟨call, input⟩
  cases call with
  | start => exact iff_of_true (fun _ hn => by cases hn) trivial
  | stop => exact staysStopped_stop_iff hw hst
  | resume i => exact staysStopped_resume_iff hreached hw hst
  | timer id =>
    refine iff_of_true ?_ trivial
    rw [staysStopped_of_not_settles (by simp) rfl]
    intro n hn
    obtain ⟨henabled, -⟩ := step_eq_some hst
    unfold InitiatorState.enabled at henabled
    dsimp only at henabled
    rw [(hw n hn).timers, Bool.and_eq_true] at henabled
    simp at henabled
  | socketConnect =>
    exact iff_of_true (staysStopped_of_keeps hw (by simp) rfl
      (fun _ => Halted.keeps_socketConnect) hst) trivial
  | socketError error =>
    exact iff_of_true (staysStopped_of_keeps hw (by simp) rfl
      (fun _ => Halted.keeps_socketError error) hst) trivial
  | socketClose =>
    refine iff_of_true (staysStopped_of_keeps hw (by simp) rfl (fun _ => ?_) hst) trivial
    exact Halted.keeps_onManager fun _ => Halted.destroyed_updateSocket fun _ _ => rfl
  | session event =>
    obtain ⟨henabled, -⟩ := step_eq_some hst
    have hevent : isSessionEvent event = true := (Bool.and_eq_true_iff.mp henabled).1
    refine iff_of_true (staysStopped_of_keeps hw (by simp) rfl (fun _ => ?_) hst) trivial
    exact Halted.keeps_onManager fun _ => destroyed_perform hevent

end Step

/-! ## Runs -/

/-- Every run of an initiator is watched. -/
theorem exec_watched (w : WatchedInitiator) (es : List InitiatorStep) :
    (watchedInitiator.exec w es).map WatchedInitiator.initiator =
      startedInitiator.exec w.initiator es := by
  refine System.exec_map (fun w e => ?_) w es
  unfold watchedInitiator
  dsimp only
  cases startedInitiator.step w.initiator e <;> rfl

/-- In every run of an initiator, whatever its calls of `stop`, timers and attempts to connect,
every `stop` that has settled is the end of them exactly when all steps meet the condition. -/
theorem staysStopped_throughout_iff {config : StartConfig} {es : List InitiatorStep}
    {st : InitiatorState} (hexec : startedInitiator.exec (.new config) es = some st) :
    (∃ w ∈ watchedInitiator.exec (.new config) es, w.initiator = st) ∧
      (watchedInitiator.Throughout StaysStopped (.new config) es ↔
        watchedInitiator.Guarded StopsCleanly (.new config) es) := by
  obtain ⟨w, hw, rfl⟩ : ∃ w, watchedInitiator.exec (.new config) es = some w ∧
      w.initiator = st :=
    Option.map_eq_some_iff.mp ((exec_watched (.new config) es).trans hexec)
  refine ⟨⟨w, hw, rfl⟩, ?_⟩
  have hinit : watchedInitiator.Reached (fun _ _ => True) (.new config) := .init ⟨config, rfl⟩
  have hguarded : watchedInitiator.Guarded (fun _ _ => True) (.new config) es :=
    System.guarded_of_forall (fun _ _ => trivial) es
  refine System.throughout_iff (I := watchedInitiator.Reached fun _ _ => True)
    (fun _ _ _ => System.Reached.step) (fun w e w' hw hstays _ hstep => ?_) hguarded hinit
    (fun _ hn => by cases hn) hw
  exact staysStopped_iff (initiator_of_reached hw) hstays hstep

/-- A client that reconnects. -/
def reconnectingConfig : StartConfig := { clientConfig with reconnect := some ⟨true, 3⟩ }

/-- The connection is refused. -/
def refused : InitiatorStep := ⟨.socketError (js "connect ECONNREFUSED"), .calm⟩

/-- An attempt fails, and the user stops the initiator before the next one. -/
def stopBetweenAttempts : List InitiatorStep :=
  [⟨.start, .calm⟩, refused, ⟨.resume 0, .calm⟩, ⟨.stop, .calm⟩]

theorem staysStopped_stopBetweenAttempts :
    (∃ w ∈ watchedInitiator.exec (.new reconnectingConfig) stopBetweenAttempts,
      w.stoppedAt = some 1) ∧
    watchedInitiator.Throughout StaysStopped (.new reconnectingConfig) stopBetweenAttempts := by
  have hrun : ∃ w ∈ watchedInitiator.exec (.new reconnectingConfig) stopBetweenAttempts,
      w.stoppedAt = some 1 := by decide +kernel
  obtain ⟨w, hw, hstopped⟩ := hrun
  have hexec : startedInitiator.exec (.new reconnectingConfig) stopBetweenAttempts =
      some w.initiator :=
    (exec_watched _ _).symm.trans (congrArg (Option.map WatchedInitiator.initiator) hw)
  exact ⟨⟨w, hw, hstopped⟩, (staysStopped_throughout_iff hexec).2.mpr (by decide +kernel)⟩

/-- The user stops the initiator while an attempt is under way, which fails afterwards. -/
def stopWhileConnecting : List InitiatorStep :=
  [⟨.start, .calm⟩, ⟨.stop, .calm⟩, refused, ⟨.resume 0, .calm⟩, ⟨.timer 0, .calm⟩]

/-- The socket is not destroyed, a timer is set, and it starts another attempt. -/
theorem not_staysStopped_stopWhileConnecting :
    (∃ w ∈ watchedInitiator.exec (.new reconnectingConfig) (stopWhileConnecting.take 2),
      w.stoppedAt = some 1 ∧ (w.initiator.manager.sockets 0).destroyed = false) ∧
    (∃ w ∈ watchedInitiator.exec (.new reconnectingConfig) (stopWhileConnecting.take 4),
      w.stoppedAt = some 1 ∧ w.initiator.timers = [0]) ∧
    (∃ w ∈ watchedInitiator.exec (.new reconnectingConfig) stopWhileConnecting,
      w.stoppedAt = some 1 ∧ w.initiator.starts = 2) ∧
    ¬ watchedInitiator.Throughout StaysStopped (.new reconnectingConfig) stopWhileConnecting := by
  have hrun : ∃ w ∈ watchedInitiator.exec (.new reconnectingConfig) stopWhileConnecting,
      w.stoppedAt = some 1 ∧ w.initiator.starts = 2 := by decide +kernel
  refine ⟨by decide +kernel, by decide +kernel, hrun, fun hthrough => ?_⟩
  obtain ⟨w, hw, hstopped, hstarts⟩ := hrun
  have hone := (hthrough.last hw 1 hstopped).starts
  omega

end NestQuickfix.Initiator
