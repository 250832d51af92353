import NestQuickfix.Acceptor.Performs
import NestQuickfix.Acceptor.WellFormed

/-!
# What the close of a socket removes

The acceptor's `close` listener compares sockets before it ends a session. The listener of
a session removes whatever is registered under the id of the session, which another
connection may have taken over meanwhile. The close of a socket spares the sessions of the
others exactly when no listener of a session that comes to its end finds such an entry.
-/

namespace NestQuickfix.Acceptor

open Lib Lib.Exec Lifecycle

/-- While the `close` event of a socket is handled, only entries of sessions on that socket
are removed. -/
def AcceptorState.ClosesOwn (st st' : AcceptorState) : Prop :=
  ∀ c ls, st.closing = some (c, ls) → ∀ sessionId s, st.registry.get? sessionId = some s →
    st'.registry.get? sessionId ≠ some s → (st.sessions s).socket = c

/-- The socket and the session of the `close` listener that an event calls, if it is one of
a session. -/
def AcceptorState.calledListener (st : AcceptorState) : Event → Option (ℕ × ℕ)
  | .nextListener =>
    match st.closing with
    | some (c, .session s :: _) => some (c, s)
    | _ => none
  | _ => none

/-- The condition: when the `close` listener of a session is called, and none of the calls
of user code it makes throws, the entry under the id of the session, if there is one, is
that of a session on the closed socket. -/
def SparesOthers (st : AcceptorState) (e : Step) : Prop :=
  ∀ l ∈ st.calledListener e.event, e.input.calmFor (st.disconnectCalls l.2) = true →
    ∀ x ∈ st.registry.get? (st.sessions l.2).sessionId, (st.sessions x).socket = l.1

instance : ∀ (st : AcceptorState) (e : Step), Decidable (SparesOthers st e) := fun st e =>
  inferInstanceAs (Decidable (∀ l ∈ st.calledListener e.event,
    e.input.calmFor (st.disconnectCalls l.2) = true →
      ∀ x ∈ st.registry.get? (st.sessions l.2).sessionId, (st.sessions x).socket = l.1))

/-! ## The listener of a session -/

theorem registry_handleDisconnect {st : AcceptorState} (s : ℕ) :
    ((handleDisconnect s).after st).registry = st.registry := by
  refine Path.eq_of (f := AcceptorState.registry) ?_ (performs_handleDisconnect s subset_rfl)
  rintro st' a (rfl | rfl | rfl | ⟨_, rfl⟩) <;> rfl

/-- A session's listener removes the entry under its id unless user code throws before. -/
theorem registry_sessionListener (st : AcceptorState) (c s : ℕ) :
    ((callCloseListener c (.session s)).after st).registry =
      if st.input.calmFor (st.disconnectCalls s) then
        st.registry.erase (st.sessions s).sessionId
      else st.registry := by
  have hregistry : ((handleDisconnect s).after st).registry = st.registry :=
    registry_handleDisconnect s
  have hcalls : Calls (st.disconnectCalls s) st (handleDisconnect s) := calls_handleDisconnect s
  unfold callCloseListener
  rcases hr : (handleDisconnect s).result st with ⟨e | _, st'⟩
  · rw [after_of_result hr] at hregistry
    have hresult : (handleDisconnect s >>= fun _ => removeId s).result st = (.error e, st') := by
      rw [result_bind, hr]
    rw [after_of_result hresult, hcalls.error e st' hr]
    exact hregistry
  · rw [after_of_result hr] at hregistry
    have hid : (st'.sessions s).sessionId = (st.sessions s).sessionId := by
      unfold Session.sessionId
      rw [(hcalls.setup_of_result hr s).2.2]
    rw [after_bind_of_ok hr, after_removeId, (hcalls.ok _ st' hr).1, if_pos rfl, ← hid,
      ← hregistry]
    exact congrArg AcceptorState.registry (st'.withoutEntry_eq _)

/-- The next listener is called after it has been taken from the list. -/
theorem after_callNextListener {st st1 : AcceptorState} {c : ℕ} {l : CloseListener}
    {ls : List CloseListener} (h : st.closing = some (c, l :: ls))
    (hst1 : (Act.setClosing (some (c, ls))).apply st = st1) :
    callNextListener.after st = match (callCloseListener c l).result st1 with
      | (.ok _, st2) => st2
      | (.error err, st2) =>
        (Act.setClosing none).apply ((Act.observe (.uncaught err)).apply st2) := by
  have hresult : (modify fun st => { st with closing := some (c, ls) } : AcceptorM Unit).result st =
      (.ok (), st1) := by
    rw [result_modify, ← hst1]
    rfl
  unfold callNextListener
  rw [after_bind_of_ok (result_get st), h]
  dsimp only
  rw [after_bind_of_ok hresult, after_bind_of_ok (result_attempt _ _)]
  rcases (callCloseListener c l).result st1 with ⟨err | _, st2⟩ <;> rfl

theorem registry_callNextListener (st : AcceptorState) {c s : ℕ} {ls : List CloseListener}
    (h : st.closing = some (c, .session s :: ls)) :
    (callNextListener.after st).registry =
      if st.input.calmFor (st.disconnectCalls s) then
        st.registry.erase (st.sessions s).sessionId
      else st.registry := by
  obtain ⟨st1, hst1⟩ : ∃ st1, (Act.setClosing (some (c, ls))).apply st = st1 := ⟨_, rfl⟩
  have hlistener := registry_sessionListener st1 c s
  rw [after_callNextListener h hst1]
  rcases hr : (callCloseListener c (.session s)).result st1 with ⟨e | _, st2⟩ <;>
  · rw [after_of_result hr] at hlistener
    subst hst1
    exact hlistener

/-! ## The listener of the acceptor -/

/-- The end of sessions keeps the entries under other ids. -/
theorem get?_tearDowns_of_ne {k k' : Lifecycle} {ss : List ℕ} {sessionId : JSString}
    (h : TearDowns ss k k') (hss : ∀ s ∈ ss, k.sessionId s ≠ sessionId) :
    k'.registry.get? sessionId = k.registry.get? sessionId := by
  induction h with
  | stop => rfl
  | @next s ss b k k1 k2 hone _ ih =>
    obtain ⟨hs, hrest⟩ := List.forall_mem_cons.mp hss
    rw [ih (by rwa [hone.untouched.sessionId])]
    cases hone with
    | handlerThrew => rfl
    | listenerThrew => rfl
    | done =>
      rw [Lifecycle.remove, OrderedMap.get?_erase]
      exact if_neg (Ne.symm hs)

/-- The acceptor's listener only removes entries of sessions on the socket. -/
theorem closesOwn_cleaned {st : AcceptorState} {k' : Lifecycle} {c x : ℕ} {ls : List CloseListener}
    {sessionId : JSString} (hwf : WellFormed st.lifecycle)
    (hk : TearDowns (st.registry.values.filter fun s => (st.sessions s).socket = c)
      (st.lifecycle.setClosing (some (c, ls))) k') (hx : st.registry.get? sessionId = some x)
    (hgone : k'.registry.get? sessionId ≠ some x) : (st.sessions x).socket = c := by
  by_contra hc
  refine hgone ((get?_tearDowns_of_ne hk fun s hs hid => hc ?_).trans hx)
  obtain ⟨hs, hsocket⟩ := List.mem_filter.mp hs
  obtain ⟨id, hentry⟩ := OrderedMap.mem_values_iff.mp hs
  have hown : (st.sessions s).sessionId = id := (hwf.entry id s hentry).1
  have hid' : (st.sessions s).sessionId = sessionId := hid
  rw [← hown, hid', hx] at hentry
  rw [Option.some.inj hentry]
  exact of_decide_eq_true hsocket

/-! ## Runs -/

/-- Only a `close` event goes on while there is one. -/
theorem event_eq_nextListener {st st' : AcceptorState} {e : Step} (h : st.step e = some st')
    (hclosing : st.closing.isSome = true) : e.event = .nextListener := by
  by_contra hne
  rw [closing_eq_none (step_enabled h) hne] at hclosing
  cases hclosing

theorem step_nextListener {st : AcceptorState} {e : Step} (hevent : e.event = .nextListener)
    (hclosing : st.closing.isSome = true) :
    st.step e = some (callNextListener.after { st with input := e.input }) := by
  unfold AcceptorState.step AcceptorState.enabled
  rw [hevent]
  exact if_pos hclosing

/-- The registry after a step that calls the listener of a session. -/
theorem registry_step_session {st st' : AcceptorState} {e : Step} {c s : ℕ}
    {ls : List CloseListener} (hclosing : st.closing = some (c, .session s :: ls))
    (h : st.step e = some st') :
    st'.registry = if e.input.calmFor (st.disconnectCalls s) then
      st.registry.erase (st.sessions s).sessionId else st.registry := by
  have hsome : st.closing.isSome = true := by rw [hclosing]; rfl
  rw [step_nextListener (event_eq_nextListener h hsome) hsome] at h
  obtain rfl := Option.some.inj h
  exact registry_callNextListener { st with input := e.input } hclosing

theorem calledListener_eq_some {st : AcceptorState} {e : Event} {c s : ℕ}
    (h : st.calledListener e = some (c, s)) :
    e = .nextListener ∧ ∃ ls, st.closing = some (c, .session s :: ls) := by
  unfold AcceptorState.calledListener at h
  split at h
  · split at h
    · next c' s' ls hclosing =>
      cases h
      exact ⟨rfl, ls, hclosing⟩
    · cases h
  · cases h

/-- Under the condition the listener of a session spares the sessions on other sockets. -/
theorem closesOwn_listened {st st' : AcceptorState} {input : Input} {c c' s x : ℕ}
    {ls ls' : List CloseListener} {sessionId : JSString}
    (h : SparesOthers st ⟨.nextListener, input⟩) (hstep : st.step ⟨.nextListener, input⟩ = some st')
    (hclosing : st.closing = some (c, ls)) (hlistener : st.closing = some (c', .session s :: ls'))
    (hx : st.registry.get? sessionId = some x) (hgone : st'.registry.get? sessionId ≠ some x) :
    (st.sessions x).socket = c := by
  cases hclosing.symm.trans hlistener
  rw [registry_step_session hlistener hstep] at hgone
  split at hgone
  · next hcalm =>
    rw [OrderedMap.get?_erase] at hgone
    split at hgone
    · next hid =>
      subst sessionId
      have hl : st.calledListener .nextListener = some (c, s) := by
        rw [AcceptorState.calledListener, hlistener]
      exact h _ hl hcalm x hx
    · exact absurd hx hgone
  · exact absurd hx hgone

/-- A step handles a close properly exactly when it meets the condition. -/
theorem closesOwn_step_iff {st : AcceptorState} {e : Step}
    (h : acceptor.Reached (fun _ _ => True) st) :
    (∀ st' ∈ st.step e, st.ClosesOwn st') ↔ SparesOthers st e := by
  have hwf := wellFormed_of_reached h
  constructor
  · rintro hown ⟨c, s⟩ hl hcalm x hx
    obtain ⟨hevent, ls, hclosing⟩ := calledListener_eq_some hl
    have hstep := step_nextListener hevent (by rw [hclosing]; rfl)
    refine hown _ hstep c _ hclosing _ x hx ?_
    rw [registry_step_session hclosing hstep, if_pos hcalm, OrderedMap.get?_erase, if_pos rfl]
    exact (Option.some_ne_none x).symm
  · intro hspares st' hstep c ls hclosing sessionId x hx hgone
    have hevent := event_eq_nextListener hstep (by rw [hclosing]; rfl)
    obtain ⟨k', hk', hst'⟩ := step_change hstep
    have hgone' := hgone
    rw [hst'.registry] at hgone'
    rcases e with ⟨event, input⟩
    subst hevent
    cases hk' with
    | kept => exact absurd hx hgone'
    | processed hincoming => cases hincoming
    | ended => exact absurd hx hgone'
    | cleaned hclosing' hk =>
      cases hclosing.symm.trans hclosing'
      exact closesOwn_cleaned hwf hk hx hgone'
    | listened hclosing' => exact closesOwn_listened hspares hstep hclosing hclosing' hx hgone
    | threw hclosing' => exact closesOwn_listened hspares hstep hclosing hclosing' hx hgone

/-- Every handling of the close of a socket in a run removes only entries of sessions on
that socket exactly when every step meets the condition. -/
theorem closesOwn_guarded_iff (config : AcceptorConfig) (es : List Step) :
    acceptor.Guarded (fun st e => ∀ st' ∈ st.step e, st.ClosesOwn st') (.new config) es ↔
      acceptor.Guarded SparesOthers (.new config) es :=
  System.Reached.guarded_congr (fun _ _ => closesOwn_step_iff) (fun _ _ => trivial)
    (.init ⟨config, rfl⟩)

/-- A client logs on a second time, and the new connection closes before the Logout to the
first session has been written. -/
def takeoverSteps : List Step :=
  (Event.connect (js "client:1")).calmly :: (Event.connect (js "client:2")).calmly ::
    logonSteps 0 (js "CLIENT") ++ ([Event.data 1 (logonBytes (js "CLIENT")), .resume 0, .resume 1,
      .resume 1, .close 1, .nextListener].map Event.calmly)

/-- The listener of the second session removes the entry of the first one. -/
theorem not_closesOwn_takeover : ∃ st ∈ acceptor.exec (broker 0) takeoverSteps,
    ∃ st' ∈ st.step Event.nextListener.calmly, ¬ st.ClosesOwn st' := by
  have hrun : ∃ st ∈ acceptor.exec (broker 0) takeoverSteps,
      ∃ st' ∈ st.step Event.nextListener.calmly, st.closing = some (1, [.session 1]) ∧
        st.registry.get? (js "CLIENT->BROKER") = some 0 ∧
        st'.registry.get? (js "CLIENT->BROKER") = none ∧ (st.sessions 0).socket = 0 := by
    decide +kernel
  obtain ⟨st, hst, st', hst', hclosing, hentry, hgone, hsocket⟩ := hrun
  refine ⟨st, hst, st', hst', fun h => ?_⟩
  have hone := h 1 _ hclosing _ 0 hentry (by rw [hgone]; exact (Option.some_ne_none 0).symm)
  omega

end NestQuickfix.Acceptor
