import NestQuickfix.Acceptor.WellFormed

/-!
# Sessions and the close of their sockets

When a socket closes, only its `close` listeners can end the sessions on it. The
listeners are installed when a session handles its Logon, and `handleDisconnect` removes
all listeners of the socket, also those of other sessions. No session is left behind as
long as a session is only ended when no other one on its socket depends on a listener,
and none is created or registered once its socket is closed.
-/

namespace NestQuickfix.Acceptor

open Lib Lifecycle

/-- Once everything has settled, no session on a closed socket is registered or has a
running heartbeat timer. -/
def AcceptorState.NoZombies (st : AcceptorState) : Prop :=
  st.tasks = [] → st.closing = none → ∀ s, (st.sockets (st.sessions s).socket).closed = true →
    s ∉ st.registry.values ∧ (st.sessions s).heartbeatTimer = false

/-! ## The condition -/

/-- A session is only created while its socket is open, and only registered after a wait
if it has not been disconnected meanwhile. -/
def AcceptorState.joinsOpen (st : AcceptorState) : Event → Bool
  | .resume i =>
    match st.tasks[i]? with
    | some (.validated c _ _ .valid) => !(st.sockets c).closed
    | some (.registration s _) => (st.sessions s).heartbeatTimer || st.limitReached
    | _ => true
  | _ => true

/-- Nothing that a session's own `close` listener calls throws. -/
def AcceptorState.listensCalmly (st : AcceptorState) (e : Step) : Bool :=
  match e.event, st.closing with
  | .nextListener, some (_, .session _ :: _) => e.input.thrown.all Option.isNone
  | _, _ => true

/-- Whether a session runs or is registered, and has its `close` listener already. -/
def AcceptorState.listens (st : AcceptorState) (s : ℕ) : Bool :=
  ((st.sessions s).heartbeatTimer || decide (s ∈ st.registry.values)) &&
    decide (.starting (st.sessions s).socket s ∉ st.tasks.filterMap Frame.pending)

/-- The sessions that an event other than a `close` event may end. -/
def AcceptorState.endsEarly (st : AcceptorState) : Event → List ℕ
  | .nextListener => []
  | e => st.ends e

/-- The condition: sessions come from Logons, they are created and registered on open
sockets, their own `close` listeners do not throw, and before its socket closes a session
is only ended when no other one on the socket depends on a listener. -/
def SparesListeners (st : AcceptorState) (e : Step) : Prop :=
  e.event.fromLogons = true ∧ st.joinsOpen e.event = true ∧ st.listensCalmly e = true ∧
    ∀ s ∈ st.endsEarly e.event, ∀ x < st.nextSession, x ≠ s →
      (st.sessions x).socket = (st.sessions s).socket → st.listens x = false

instance : ∀ (st : AcceptorState) (e : Step), Decidable (SparesListeners st e) := fun st e =>
  inferInstanceAs (Decidable (e.event.fromLogons = true ∧ st.joinsOpen e.event = true ∧
    st.listensCalmly e = true ∧ ∀ s ∈ st.endsEarly e.event, ∀ x < st.nextSession, x ≠ s →
      (st.sessions x).socket = (st.sessions s).socket → st.listens x = false))

/-! ## Attended sessions -/

variable {k k' : Lifecycle} {s x : ℕ}

/-- A session runs or is registered. -/
def Present (k : Lifecycle) (x : ℕ) : Prop := k.timer x = true ∨ x ∈ k.registry.values

/-- A session has a listener that a `close` event will call or is about to call, or will get
one when it handles its Logon. -/
def Attended (k : Lifecycle) (x : ℕ) : Prop :=
  (k.closed (k.socket x) = false ∧
    (.session x ∈ k.listeners (k.socket x) ∨ .starting (k.socket x) x ∈ k.pending)) ∨
  ∃ ls, k.closing = some (k.socket x, ls) ∧ .session x ∈ ls

/-- Every session that runs or is registered is attended. -/
def AllAttended (k : Lifecycle) : Prop := ∀ x, Present k x → Attended k x

/-- No other session on the socket of `s` depends on a listener. -/
def Alone (s : ℕ) (k : Lifecycle) : Prop :=
  ∀ x ≠ s, Present k x → k.socket x = k.socket s → .starting (k.socket x) x ∈ k.pending

theorem Present.lt_nextSession (h : WellFormed k) (hx : Present k x) : x < k.nextSession := by
  rcases hx with hx | hx
  · exact h.timer x hx
  · obtain ⟨id, hid⟩ := OrderedMap.mem_values_iff.mp hx
    exact (h.entry id x hid).2

theorem Attended.suspend (h : Attended k x) (p : Pending) : Attended (k.suspend p) x := by
  rcases h with ⟨hopen, h | h⟩ | h
  · exact Or.inl ⟨hopen, Or.inl h⟩
  · exact Or.inl ⟨hopen, Or.inr (Multiset.mem_cons_of_mem h)⟩
  · exact Or.inr h

theorem Attended.resume (h : Attended k x) {p : Pending} (hp : p ≠ .starting (k.socket x) x) :
    Attended (k.resume p) x := by
  rcases h with ⟨hopen, h | h⟩ | h
  · exact Or.inl ⟨hopen, Or.inl h⟩
  · exact Or.inl ⟨hopen, Or.inr ((Multiset.mem_erase_of_ne hp.symm).mpr h)⟩
  · exact Or.inr h

theorem Attended.listen (h : Attended k x) (c : ℕ) (l : CloseListener) :
    Attended (k.listen c l) x := by
  rcases h with ⟨hopen, h | h⟩ | h
  · refine Or.inl ⟨hopen, Or.inl ?_⟩
    by_cases hc : k.socket x = c
    · subst c
      simpa [Lifecycle.listen] using Or.inl h
    · simpa [Lifecycle.listen, hc] using h
  · exact Or.inl ⟨hopen, Or.inr h⟩
  · exact Or.inr h

/-! ## Ends of sessions -/

theorem Present.tornDown {b : Bool} (hk : TornDown s k b k') (hx : Present k' x) :
    Present k x := by
  have htimer : k'.timer x = true → k.timer x = true := by
    rw [hk.timer]
    by_cases hxs : x = s <;> simp [hxs]
  have hvalues : x ∈ k'.registry.values → x ∈ k.registry.values := by
    rw [OrderedMap.mem_values_iff, OrderedMap.mem_values_iff]
    rintro ⟨id, hid⟩
    exact ⟨id, hk.get?_of hid⟩
  exact hx.imp htimer hvalues

/-- A session that has been ended completely neither runs nor is it registered. -/
theorem not_present_of_done (h : WellFormed k) (hk : TornDown s k true k') : ¬ Present k' s := by
  rintro (hs | hs)
  · rw [hk.timer_eq_false] at hs
    cases hs
  · obtain ⟨id, hid⟩ := OrderedMap.mem_values_iff.mp hs
    have hsession := ((h.tornDown hk).entry id s hid).1
    rw [hk.untouched.sessionId] at hsession
    subst id
    cases hk with
    | done => simp [Lifecycle.remove, OrderedMap.get?_erase] at hid

/-- The end of a session leaves another one attended that does not depend on a listener of
the same open socket. -/
theorem Attended.tornDown {b : Bool} (hk : TornDown s k b k') (h : Attended k x)
    (hs : b = true → k.socket x = k.socket s →
      k.closed (k.socket s) = true ∨ .starting (k.socket x) x ∈ k.pending) : Attended k' x := by
  have hu := hk.untouched
  unfold Attended
  rw [hu.socket, hu.closed, hu.pending, hu.closing]
  rcases h with ⟨hopen, h | h⟩ | h
  · refine Or.inl ⟨hopen, ?_⟩
    cases hk with
    | handlerThrew => exact Or.inl h
    | listenerThrew => exact Or.inl h
    | done =>
      by_cases hc : k.socket x = k.socket s
      · rcases hs rfl hc with hclosed | hstarting
        · rw [hc, hclosed] at hopen
          cases hopen
        · exact Or.inr hstarting
      · left
        simpa [Lifecycle.strip, Lifecycle.remove, Lifecycle.report, Lifecycle.disconnect,
          Lifecycle.stop, Lifecycle.observe, hc] using h
  · exact Or.inl ⟨hopen, Or.inr h⟩
  · exact Or.inr h

namespace AllAttended

theorem mono (h : AllAttended k) (hpresent : ∀ x, Present k' x → Present k x)
    (hattended : ∀ x, Present k' x → Attended k x → Attended k' x) : AllAttended k' :=
  fun x hx => hattended x hx (h x (hpresent x hx))

/-- The end of a session on a closed socket. -/
theorem tornDown_closed {b : Bool} (h : AllAttended k) (hclosed : k.closed (k.socket s) = true)
    (hk : TornDown s k b k') : AllAttended k' :=
  h.mono (fun _ hx => hx.tornDown hk) fun _ _ hx => hx.tornDown hk fun _ _ => Or.inl hclosed

/-- The ends of sessions on a closed socket. -/
theorem tearDowns_closed {ss : List ℕ} {c : ℕ} (h : AllAttended k) (hclosed : k.closed c = true)
    (hss : ∀ s ∈ ss, k.socket s = c) (hk : TearDowns ss k k') : AllAttended k' := by
  induction hk with
  | stop => exact h
  | next hone _ ih =>
    obtain ⟨hs, hrest⟩ := List.forall_mem_cons.mp hss
    refine ih (h.tornDown_closed (hs ▸ hclosed) hone) ?_ ?_
    · rw [hone.untouched.closed]
      exact hclosed
    · rw [hone.untouched.socket]
      exact hrest

/-- The end of a session on whose socket no other one depends on a listener. -/
theorem tearDowns_alone (h : AllAttended k) (hwf : WellFormed k) (hs : Alone s k)
    (hk : TearDowns [s] k k') : AllAttended k' := by
  cases hk with
  | stop => exact h
  | next hone hnil =>
    cases hnil
    refine h.mono (fun _ hx => hx.tornDown hone) fun x hx hatt =>
      hatt.tornDown hone fun hb hc => ?_
    subst hb
    have hxs : x ≠ s := by
      rintro rfl
      exact not_present_of_done hwf hone hx
    exact Or.inr (hs x hxs (hx.tornDown hone) hc)

theorem handled {m : Message} (h : AllAttended k) (hwf : WellFormed k)
    (hs : m.getField Fields.msgType = MsgType.logout → Alone s k) (hk : Handled s m k k') :
    AllAttended k' := by
  cases hk with
  | unanswered => exact h
  | answered => exact h
  | logout hlogout hk => exact h.tearDowns_alone hwf (hs hlogout) hk
  | other => exact h

end AllAttended

/-! ## Registrations -/

theorem Present.create {id : JSString} {c : ℕ} (hx : Present (k.create id c) x)
    (hne : x ≠ k.nextSession) : Present k x := by
  refine hx.imp_left fun htimer => ?_
  simpa [Lifecycle.create, hne] using htimer

theorem Present.register (hx : Present (k.register s) x) (hne : x ≠ s) : Present k x := by
  refine hx.imp_right fun hvalues => ?_
  obtain ⟨id, hid⟩ := OrderedMap.mem_values_iff.mp hvalues
  rw [Lifecycle.register, OrderedMap.get?_set] at hid
  split at hid
  · exact absurd (Option.some.inj hid).symm hne
  · exact OrderedMap.mem_values_iff.mpr ⟨id, hid⟩

theorem Present.registered (hk : Registered s k k') (hx : Present k' x) (hne : x ≠ s) :
    Present k x := by
  cases hk with
  | stored => exact hx.register hne
  | refused => exact hx
  | unhandled => exact hx

theorem Present.registering {states : ℕ → SessionState} (hk : Registering states s k k')
    (hx : Present k' x) (hne : x ≠ s) : Present k x := by
  cases hk with
  | finished _ hk => exact hx.registered hk hne
  | retry => exact hx
  | waiting => exact hx

theorem Attended.create (h : Attended k x) (hx : x < k.nextSession) (id : JSString) (c : ℕ) :
    Attended (k.create id c) x := by
  have hsocket : (k.create id c).socket x = k.socket x :=
    Function.update_of_ne (Nat.ne_of_lt hx) ..
  unfold Attended
  rw [hsocket]
  exact h

theorem Attended.registering {states : ℕ → SessionState} (hk : Registering states s k k')
    (h : Attended k x) : Attended k' x := by
  cases hk with
  | finished _ hk => cases hk <;> exact h
  | retry => exact h.suspend _
  | waiting => exact h.suspend _

theorem closed_registering {states : ℕ → SessionState} (hk : Registering states s k k') :
    k'.closed = k.closed := by
  cases hk with
  | finished _ hk => cases hk <;> rfl
  | retry => rfl
  | waiting => rfl

/-- A session created on an open socket is attended by the task that will handle its Logon. -/
theorem AllAttended.created {states : ℕ → SessionState} {id : JSString} {c : ℕ}
    (h : AllAttended k) (hwf : WellFormed k) (hopen : k.closed c = false)
    (hk : Registering states k.nextSession (k.create id c) k') :
    AllAttended (k'.suspend (.starting c k.nextSession)) := by
  intro x hx
  by_cases hne : x = k.nextSession
  · subst x
    have hsocket := (hwf.create_registering hk).2.1
    have hclosed : k'.closed c = false := by
      rw [closed_registering hk]
      exact hopen
    left
    simp only [Lifecycle.suspend, hsocket, hclosed, Multiset.mem_cons, true_or, or_true,
      and_self]
  · have hold := (Present.registering hk hx hne).create hne
    exact (((h x hold).create (hold.lt_nextSession hwf) id c).registering hk).suspend _

/-! ## Steps -/

theorem starting_notMem_of_quiet {st : AcceptorState} {c : ℕ} (h : st.quiet = true) :
    .starting c s ∉ st.lifecycle.pending := by
  intro hmem
  obtain ⟨frame, hframe, hp⟩ := List.mem_filterMap.mp (Multiset.mem_coe.mp hmem)
  have hready := List.all_eq_true.mp h frame hframe
  cases frame with
  | created => simp [Frame.wait] at hready
  | handlersSet => simp [Frame.wait] at hready
  | logoutSent s caller error => cases caller <;> cases hp
  | _ => cases hp

theorem alone_of_guard {st : AcceptorState} {e : Step} (h : SparesListeners st e)
    (hwf : WellFormed st.lifecycle) (hne : e.event ≠ .nextListener) (hs : s ∈ st.ends e.event) :
    Alone s st.lifecycle := by
  intro x hx hpresent hsocket
  have hearly : s ∈ st.endsEarly e.event := by
    unfold AcceptorState.endsEarly
    split
    · next heq => exact absurd heq hne
    · exact hs
  have hlistens := h.2.2.2 s hearly x (hpresent.lt_nextSession hwf) hx hsocket
  have hmem : ((st.sessions x).heartbeatTimer || decide (x ∈ st.registry.values)) = true := by
    rw [Bool.or_eq_true, decide_eq_true_iff]
    exact hpresent
  rw [AcceptorState.listens, hmem, Bool.true_and, decide_eq_false_iff_not, not_not] at hlistens
  exact Multiset.mem_coe.mpr hlistens

theorem Alone.taken (h : Alone s k) (caller : LogoutCaller) :
    Alone s (k.taken (caller.pending s)) := by
  match caller with
  | .user => exact h
  | .closeAll n => exact h
  | .registration r dropped =>
    intro x hx hpresent hsocket
    exact (Multiset.mem_erase_of_ne (by simp)).mpr (h x hx hpresent hsocket)

theorem Alone.started (h : Alone s k) (c : ℕ) :
    Alone s ((k.resume (.starting c s)).listen c (.session s)) := by
  intro x hx hpresent hsocket
  exact (Multiset.mem_erase_of_ne (by simp [hx])).mpr (h x hx hpresent hsocket)

/-- A socket is closed while no session on it waits for its Logon. -/
theorem AllAttended.close (h : AllAttended k) (hnone : k.closing = none)
    (hstarting : ∀ c s, .starting c s ∉ k.pending) (c : ℕ) : AllAttended (k.close c) := by
  intro x hx
  rcases h x hx with ⟨hopen, hlistener | hpending⟩ | ⟨ls, hls, _⟩
  · by_cases hc : k.socket x = c
    · subst c
      exact Or.inr ⟨_, rfl, hlistener⟩
    · refine Or.inl ⟨?_, Or.inl hlistener⟩
      simpa [Lifecycle.close, hc] using hopen
  · exact absurd hpending (hstarting _ _)
  · rw [hnone] at hls
    cases hls

/-- A close event ends when no listener is left. -/
theorem AllAttended.ended {c : ℕ} (h : AllAttended k) (hclosing : k.closing = some (c, [])) :
    AllAttended (k.setClosing none) := by
  intro x hx
  rcases h x hx with hopen | ⟨ls, hls, hmem⟩
  · exact Or.inl hopen
  · rw [hclosing] at hls
    obtain ⟨_, rfl⟩ := Prod.mk.inj (Option.some.inj hls)
    cases hmem

/-- A close event goes on: the listener called may end sessions on the closed socket. -/
theorem AllAttended.setClosing {c : ℕ} {l : CloseListener} {ls : List CloseListener}
    (h : AllAttended k) (hclosing : k.closing = some (c, l :: ls)) (hx : Present k x)
    (hne : l ≠ .session x) : Attended (k.setClosing (some (c, ls))) x := by
  rcases h x hx with hopen | ⟨ls', hls', hmem⟩
  · exact Or.inl hopen
  · rw [hclosing] at hls'
    obtain ⟨rfl, rfl⟩ := Prod.mk.inj (Option.some.inj hls')
    exact Or.inr ⟨ls, rfl, List.mem_of_ne_of_mem hne.symm hmem⟩

/-- Every change keeps it that meets the condition. -/
theorem AllAttended.change {st : AcceptorState} {e : Step} (h : AllAttended st.lifecycle)
    (hwf : WellFormed st.lifecycle) (hguard : SparesListeners st e)
    (henabled : st.enabled e.event = true) (hk : Change st e k') : AllAttended k' := by
  have halone : e.event ≠ .nextListener → ∀ s ∈ st.ends e.event, Alone s st.lifecycle :=
    fun hne s hs => alone_of_guard hguard hwf hne hs
  cases hk with
  | kept => exact h
  | processed hin hk =>
    cases hk with
    | @routed m s _ hm hs hk =>
      have hne : e.event ≠ .nextListener := by
        intro heq
        rw [heq] at hin
        cases hin
      refine AllAttended.handled (k := st.lifecycle.observe _) h (hwf.observe _)
        (fun hlogout => ?_) hk
      exact halone hne s (by simp [ends_processed hin hm hs hlogout])
    | unrouted => exact h
  | connected => exact h.mono (fun _ => id) fun _ _ hx => hx.listen _ _
  | @created i c m rest input k1 hf hk =>
    have hjoins := hguard.2.1
    rw [AcceptorState.joinsOpen, hf, Bool.not_eq_true'] at hjoins
    exact h.created hwf hjoins hk
  | @started i c s m rest input _ hf hk =>
    have hs := hwf.starting c s (mem_pending_of_task hf rfl)
    have hstarting : AllAttended ((st.lifecycle.resume (.starting c s)).listen c (.session s)) := by
      intro x hx
      by_cases hxs : x = s
      · subst x
        rcases h s hx with ⟨hopen, _⟩ | hls
        · refine Or.inl ⟨hopen, Or.inl ?_⟩
          simp [Lifecycle.listen, Lifecycle.resume, hs.1]
        · exact Or.inr hls
      · exact ((h x hx).resume (by simp [Ne.symm hxs])).listen _ _
    refine hstarting.handled ((hwf.resume _).listen fun x hx => ?_) (fun hlogout => ?_) hk
    · cases hx
      exact hs
    · exact (halone (by simp) s (by simp [ends_started hf hlogout])).started c
  | @loggedOut i s caller error input k1 hf hk =>
    have htaken : AllAttended (st.lifecycle.taken (caller.pending s)) := by
      cases caller with
      | user => exact h
      | closeAll n => exact h
      | registration r dropped => exact h.mono (fun _ => id) fun _ _ hx => hx.resume (by simp)
    have hends := (halone (by simp) s (by simp [ends_loggedOut hf])).taken caller
    have hended := htaken.tearDowns_alone (hwf.taken _) hends hk
    cases caller with
    | user => exact hended
    | closeAll n => exact hended
    | registration r dropped => exact hended.mono (fun _ => id) fun _ _ hx => hx.suspend _
  | @registered i s dropped input _ hf hk =>
    have hresume : AllAttended (st.lifecycle.resume (.registering s none)) :=
      h.mono (fun _ => id) fun _ _ hx => hx.resume (by simp)
    have hjoins : ((st.sessions s).heartbeatTimer || st.limitReached) = true := by
      have hjoins := hguard.2.1
      rwa [AcceptorState.joinsOpen, hf] at hjoins
    cases hk with
    | stored hlimit =>
      have hlimit' : st.limitReached = false := hlimit
      rw [hlimit', Bool.or_false] at hjoins
      intro x hx
      by_cases hxs : x = s
      · subst x
        exact hresume s (Or.inl hjoins)
      · exact hresume x (hx.register hxs)
    | refused => exact hresume
    | unhandled => exact hresume
  | cleared =>
    refine h.mono (fun x hx => hx.imp_right fun hvalues => ?_) fun _ _ hx => hx
    cases hvalues
  | @closed c input =>
    simp only [AcceptorState.enabled, Bool.and_eq_true, Option.isNone_iff_eq_none] at henabled
    obtain ⟨hnone, ⟨hquiet, _⟩, _⟩ := henabled
    exact h.close hnone (fun _ _ => starting_notMem_of_quiet hquiet) c
  | ended hclosing => exact h.ended hclosing
  | cleaned hclosing hk =>
    refine AllAttended.tearDowns_closed (fun x hx => h.setClosing hclosing hx (by simp))
      (hwf.closing _ _ hclosing).1 (fun s hs => ?_) hk
    exact of_decide_eq_true (List.mem_filter.mp hs).2
  | @listened c s ls input _ hclosing hk =>
    obtain ⟨hclosed, hsockets⟩ := hwf.closing c _ hclosing
    have hs := (hsockets s List.mem_cons_self).1
    intro x hx
    have hxs : x ≠ s := by
      rintro rfl
      exact not_present_of_done (hwf.setClosing_tail hclosing) hk hx
    have hold : Present (st.lifecycle.setClosing (some (c, ls))) x := hx.tornDown hk
    refine (h.setClosing hclosing hold (by simp [Ne.symm hxs])).tornDown hk fun _ _ => Or.inl ?_
    exact hs ▸ hclosed
  | @threw c s ls input b _ hclosing hk hthrown =>
    obtain ⟨err, herr⟩ := hthrown
    have hcalm := hguard.2.2.1
    simp only [AcceptorState.listensCalmly, hclosing, List.all_eq_true] at hcalm
    exact absurd (hcalm _ herr) (by simp)
  | handled hk =>
    exact h.handled hwf (fun hlogout => halone (by simp) _ (by simp [ends_handled hlogout])) hk
  | created' => cases hguard.1
  | stored => cases hguard.1
  | registering => cases hguard.1
  | removed =>
    refine h.mono (fun x hx => hx.imp_right fun hvalues => ?_) fun _ _ hx => hx
    obtain ⟨id, hid⟩ := OrderedMap.mem_values_iff.mp hvalues
    rw [Lifecycle.remove, OrderedMap.get?_erase] at hid
    split at hid
    · cases hid
    · exact OrderedMap.mem_values_iff.mpr ⟨id, hid⟩

theorem allAttended_new (config : AcceptorConfig) :
    AllAttended (AcceptorState.new config).lifecycle := by
  rintro x (hx | hx) <;> cases hx

/-- In every run that meets the condition, once a socket has closed and everything has
settled, no session on it is registered or has a running heartbeat timer. -/
theorem noZombies_of_reached {st : AcceptorState} (h : acceptor.Reached SparesListeners st) :
    st.NoZombies := by
  have hboth := lifecycle_of_reached (P := fun k => WellFormed k ∧ AllAttended k)
    (fun config => ⟨wellFormed_new config, allAttended_new config⟩) ?_ ?_ h
  · intro _ hclosing s hclosed
    have hnot : ¬ Present st.lifecycle s := by
      intro hpresent
      rcases hboth.2 s hpresent with ⟨hopen, _⟩ | ⟨ls, hls, _⟩
      · exact Bool.noConfusion (hclosed.symm.trans hopen)
      · cases hclosing.symm.trans hls
    obtain ⟨htimer, hvalues⟩ := not_or.mp hnot
    exact ⟨hvalues, Bool.eq_false_iff.mpr htimer⟩
  · rintro k _ ⟨hwf, hk⟩ ⟨l, hl, rfl⟩
    exact ⟨hwf.lowered ⟨l, hl, rfl⟩, hk⟩
  · rintro st e k' ⟨hwf, hk⟩ hguard henabled hk'
    exact ⟨hwf.change henabled hk', hk.change hwf hguard henabled hk'⟩

/-- The session of a client that logged on and left is gone. -/
theorem noZombies_leavingSteps : ∃ st ∈ acceptor.exec (broker 0) leavingSteps,
    (st.tasks.isEmpty ∧ st.closing = none ∧ (st.sockets (st.sessions 0).socket).closed = true) ∧
      st.NoZombies := by
  have hguarded : acceptor.Guarded SparesListeners (broker 0) leavingSteps := by decide +kernel
  have hrun : ∃ st ∈ acceptor.exec (broker 0) leavingSteps,
      st.tasks.isEmpty ∧ st.closing = none ∧
        (st.sockets (st.sessions 0).socket).closed = true := by decide +kernel
  obtain ⟨st, hst, hend⟩ := hrun
  have hreached : acceptor.Reached SparesListeners (broker 0) := .init ⟨_, rfl⟩
  exact ⟨st, hst, hend, noZombies_of_reached (hreached.exec hguarded hst)⟩

/-- Two clients log on over one connection, the first one logs out, and the connection
closes. -/
def sharedSteps : List Step :=
  (Event.connect (js "gateway:1")).calmly :: logonSteps 0 (js "ALICE") ++
    logonSteps 0 (js "BOB") ++
    ([Event.data 0 (clientBytes (js "5") (js "ALICE") []), .resume 0, .resume 0, .close 0,
      .nextListener].map Event.calmly)

/-- The Logout of the first client has removed the listeners of the second one, whose
session stays registered with a running timer. -/
theorem not_noZombies_sharedSteps :
    ∃ st ∈ acceptor.exec (broker 0) sharedSteps, ¬ st.NoZombies := by
  have hrun : ∃ st ∈ acceptor.exec (broker 0) sharedSteps,
      st.tasks.isEmpty ∧ st.closing = none ∧
        (st.sockets (st.sessions 1).socket).closed = true ∧
        (st.sessions 1).heartbeatTimer = true := by decide +kernel
  obtain ⟨st, hst, htasks, hclosing, hclosed, htimer⟩ := hrun
  refine ⟨st, hst, fun h => ?_⟩
  have hgone := (h (List.isEmpty_iff.mp htasks) hclosing 1 hclosed).2
  rw [htimer] at hgone
  cases hgone

end NestQuickfix.Acceptor
