import NestQuickfix.Acceptor.Registrations

/-!
# Replaced sessions

`registerSession` looks up the old session once, waits for its logout, and then stores the
new one whatever stands under the id by then; `createSession` does not look at all. No
session is orphaned as long as registrations of one id do not overlap, old sessions are
really logged out, and the entries of LOGGED_ON sessions are left alone.
-/

namespace NestQuickfix.Acceptor

open Lib Lifecycle

/-- Every session whose entry a step replaces has been disconnected. -/
def AcceptorState.ReplacesDisconnected (st st' : AcceptorState) : Prop :=
  ∀ id old new, st.registry.get? id = some old → st'.registry.get? id = some new → new ≠ old →
    .ran old .disconnected ∈ st.trace ∧ (st.sessions old).heartbeatTimer = false

/-- Once no registration is under way, at most one session per id is LOGGED_ON. -/
def AcceptorState.OneLoggedOnPerId (st : AcceptorState) : Prop :=
  st.registering = [] → ∀ s < st.nextSession, ∀ s' < st.nextSession,
    (st.sessions s).state = .loggedOn → (st.sessions s').state = .loggedOn →
    (st.sessions s).sessionId = (st.sessions s').sessionId → s = s'

/-! ## The condition -/

/-- The id for which an event begins a registration or creates a session. -/
def AcceptorState.begins (st : AcceptorState) : Event → Option JSString
  | .resume i =>
    match st.tasks[i]? with
    | some (.validated _ m _ .valid) => some (buildSessionId m)
    | _ => none
  | .registerSession s => some (st.sessions s).sessionId
  | .createSession config _ =>
    if st.limitReached then none else some (sessionKey config.senderCompId config.targetCompId)
  | _ => none

/-- Whether a registered session may stand in the way of an event that begins a registration
or creates a session: `createSession` replaces it at once, and `registerSession` cannot log
it out when it is DISCONNECTED. -/
def AcceptorState.yields (st : AcceptorState) (x : ℕ) : Event → Bool
  | .createSession .. => !(st.sessions x).heartbeatTimer
  | .registerSession s =>
    decide (x = s) || decide ((st.sessions x).state ≠ .disconnected) ||
      !(st.sessions x).heartbeatTimer
  | _ => decide ((st.sessions x).state ≠ .disconnected) || !(st.sessions x).heartbeatTimer

/-- Whether a registration waits for the logout that goes on. -/
def AcceptorState.logsOutOld (st : AcceptorState) : Event → Bool
  | .resume i =>
    match st.tasks[i]? with
    | some (.logoutSent _ (.registration ..) _) => true
    | _ => false
  | _ => false

/-- A Logon is handled by a session with timers that is registered or about to be. -/
def AcceptorState.LogsOnRegistered (st : AcceptorState) (event : Event) : Prop :=
  (∀ s ∈ st.logsOn event, (st.sessions s).heartbeatTimer = true ∧
    (st.registry.get? (st.sessions s).sessionId = some s ∨ s ∈ st.registering)) ∧
  ∀ s ∈ st.stores event, (st.sessions s).state = .loggedOn → st.limitReached = false

/-- An event removes no entry of a LOGGED_ON session other than one it ends. -/
def AcceptorState.SparesLoggedOn (st : AcceptorState) (event : Event) : Prop :=
  (∀ s ∈ st.ends event, ∀ x ∈ st.registry.get? (st.sessions s).sessionId, x ≠ s →
    (st.sessions x).state ≠ .loggedOn) ∧
  ∀ id ∈ st.clears event, ∀ x ∈ st.registry.get? id, (st.sessions x).state ≠ .loggedOn

instance (st : AcceptorState) (event : Event) : Decidable (st.LogsOnRegistered event) :=
  inferInstanceAs (Decidable ((∀ s ∈ st.logsOn event, (st.sessions s).heartbeatTimer = true ∧
    (st.registry.get? (st.sessions s).sessionId = some s ∨ s ∈ st.registering)) ∧
    ∀ s ∈ st.stores event, (st.sessions s).state = .loggedOn → st.limitReached = false))

instance (st : AcceptorState) (event : Event) : Decidable (st.SparesLoggedOn event) :=
  inferInstanceAs (Decidable ((∀ s ∈ st.ends event,
    ∀ x ∈ st.registry.get? (st.sessions s).sessionId, x ≠ s →
      (st.sessions x).state ≠ .loggedOn) ∧
    ∀ id ∈ st.clears event, ∀ x ∈ st.registry.get? id, (st.sessions x).state ≠ .loggedOn))

/-- The condition: no registration begins while one of the same id is under way, the old
session can be logged out and is, and LOGGED_ON sessions are registered and stay so. -/
def RegistersInTurn (st : AcceptorState) (e : Step) : Prop :=
  (∀ id ∈ st.begins e.event, (∀ s ∈ st.registering, (st.sessions s).sessionId ≠ id) ∧
    ∀ x ∈ st.registry.get? id, st.yields x e.event = true) ∧
  (st.logsOutOld e.event = true → e.input.thrown.headD none = none) ∧
  st.LogsOnRegistered e.event ∧ st.SparesLoggedOn e.event

instance : ∀ (st : AcceptorState) (e : Step), Decidable (RegistersInTurn st e) := fun st e =>
  inferInstanceAs (Decidable ((∀ id ∈ st.begins e.event,
    (∀ s ∈ st.registering, (st.sessions s).sessionId ≠ id) ∧
      ∀ x ∈ st.registry.get? id, st.yields x e.event = true) ∧
    (st.logsOutOld e.event = true → e.input.thrown.headD none = none) ∧
    st.LogsOnRegistered e.event ∧ st.SparesLoggedOn e.event))

/-! ## Orderly registrations -/

/-- LOGGED_ON sessions have timers and are registered or about to be, the registrations
under way have different ids, what stands under such an id is harmless or being logged out,
and sessions without timers have been disconnected. -/
structure Orderly (k : Lifecycle) : Prop where
  loggedOn : ∀ s, k.loggedOn s = true →
    k.timer s = true ∧ (k.registry.get? (k.sessionId s) = some s ∨ s ∈ k.registering)
  different : (k.registering.map k.sessionId).Nodup
  awaited : ∀ s old, .registering s old ∈ k.pending →
    ∀ x, k.registry.get? (k.sessionId s) = some x → x = s ∨ k.timer x = false ∨ old = some x
  disconnected : ∀ s < k.nextSession, k.timer s = true ∨ .ran s .disconnected ∈ k.trace

namespace Orderly

variable {k k' : Lifecycle} {s x : ℕ}

theorem lowered (h : Orderly k) (hk : Lowered k k') : Orderly k' := by
  obtain ⟨l, hl, rfl⟩ := hk
  exact ⟨fun s hs => h.loggedOn s (hl s hs), h.different, h.awaited, h.disconnected⟩

theorem observe (h : Orderly k) (o : Observation) : Orderly (k.observe o) :=
  ⟨h.loggedOn, h.different, h.awaited, fun s hs => (h.disconnected s hs).imp_right
    (List.mem_append_left _)⟩

/-- A Logon is handled by a running session that is registered or about to be. -/
theorem logOn (h : Orderly k) (hs : k.timer s = true ∧
    (k.registry.get? (k.sessionId s) = some s ∨ s ∈ k.registering)) : Orderly (k.logOn s) := by
  refine ⟨fun x hx => ?_, h.different, h.awaited, h.disconnected⟩
  by_cases hxs : x = s
  · subst x
    exact hs
  · exact h.loggedOn x (by simpa [Lifecycle.logOn, hxs] using hx)

/-- Other tasks may be pending as long as the same registrations are under way, and none
waits for less. -/
theorem withPending {pending : Multiset Pending} (h : Orderly k)
    (hsame : Lifecycle.registering { k with pending := pending } = k.registering)
    (hawaited : ∀ s old, .registering s old ∈ pending → .registering s old ∉ k.pending →
      ∀ x, k.registry.get? (k.sessionId s) = some x → x = s ∨ k.timer x = false ∨ old = some x) :
    Orderly { k with pending := pending } := by
  refine ⟨fun s hs => ?_, ?_, fun s old hs => ?_, h.disconnected⟩
  · rw [hsame]
    exact h.loggedOn s hs
  · rw [hsame]
    exact h.different
  · by_cases hmem : .registering s old ∈ k.pending
    · exact h.awaited s old hmem
    · exact hawaited s old hs hmem

theorem resume_starting {c : ℕ} (h : Orderly k) (hp : .starting c s ∈ k.pending) :
    Orderly (k.resume (.starting c s)) :=
  h.withPending (registering_resume_starting hp) fun _ _ hmem hnot =>
    absurd (Multiset.mem_of_mem_erase hmem) hnot

theorem suspend_starting (h : Orderly k) (c : ℕ) : Orderly (k.suspend (.starting c s)) :=
  h.withPending (registering_suspend_starting c) fun _ _ hmem hnot =>
    absurd ((Multiset.mem_cons.mp hmem).resolve_left (by simp)) hnot

/-- Entries that are removed are not those of LOGGED_ON sessions. -/
theorem erase {registry : OrderedMap JSString ℕ} (h : Orderly k)
    (hold : ∀ id x, registry.get? id = some x → k.registry.get? id = some x)
    (hkept : ∀ x, k.loggedOn x = true → k.registry.get? (k.sessionId x) = some x →
      registry.get? (k.sessionId x) = some x) : Orderly { k with registry := registry } :=
  ⟨fun x hx => ⟨(h.loggedOn x hx).1, (h.loggedOn x hx).2.imp_left (hkept x hx)⟩, h.different,
    fun s old hs x hx => h.awaited s old hs x (hold _ x hx), h.disconnected⟩

/-! ## Ends of sessions -/

/-- The end of sessions: one without timers afterwards has been disconnected, and one that
is still LOGGED_ON still has its timers. -/
theorem running_tearDowns {ss : List ℕ} (hk : TearDowns ss k k') :
    (∀ x, k.timer x = true → k'.timer x = true ∨ .ran x .disconnected ∈ k'.trace) ∧
      ∀ x, k'.loggedOn x = true → k.timer x = true → k'.timer x = true := by
  induction hk with
  | stop => exact ⟨fun _ => Or.inl, fun _ _ => id⟩
  | @next s ss b k k1 k2 hone hrest ih =>
    have hran : .ran s .disconnected ∈ k1.trace := by
      cases hone <;> simp [disconnect, report, strip, remove, Lifecycle.observe]
    refine ⟨fun x hx => ?_, fun x hlogged hx => ?_⟩
    · by_cases hxs : x = s
      · subst x
        exact Or.inr (hrest.prefix_trace.subset hran)
      · exact ih.1 x ((hone.timer_of_ne hxs).trans hx)
    · have hone1 := live_of_tearDowns loggedOn_clearedByEnd hrest hlogged
      have hxs : x ≠ s := by
        rintro rfl
        rw [hone.loggedOn, Function.update_self] at hone1
        cases hone1
      exact ih.2 x hlogged ((hone.timer_of_ne hxs).trans hx)

/-- Sessions end under whose ids no other LOGGED_ON session stands. -/
theorem tearDowns {ss : List ℕ} (h : Orderly k)
    (hss : ∀ s ∈ ss, ∀ x, k.registry.get? (k.sessionId s) = some x → x ≠ s → k.loggedOn x = false)
    (hk : TearDowns ss k k') : Orderly k' := by
  have hu := hk.untouched
  have hrunning := running_tearDowns hk
  have hregistering : k'.registering = k.registering := by
    rw [Lifecycle.registering, Lifecycle.registering, hu.pending]
  refine ⟨fun x hx => ?_, ?_, fun s old hs x hx => ?_, fun x hx => ?_⟩
  · have hxk := live_of_tearDowns loggedOn_clearedByEnd hk hx
    obtain ⟨hrun, hplace⟩ := h.loggedOn x hxk
    refine ⟨hrunning.2 x hx hrun, ?_⟩
    rw [hu.sessionId, hregistering]
    exact hplace.imp_left (get?_tearDowns loggedOn_clearedByEnd hk hss hx)
  · rw [hu.sessionId, hregistering]
    exact h.different
  · rw [hu.pending] at hs
    rw [hu.sessionId] at hx
    refine (h.awaited s old hs x (hk.get?_of hx)).imp_right (Or.imp_left fun hdead => ?_)
    refine Bool.eq_false_iff.mpr fun hx' => ?_
    have hxk := live_of_tearDowns timer_clearedByEnd hk hx'
    rw [hdead] at hxk
    cases hxk
  · rw [hu.nextSession] at hx
    rcases h.disconnected x hx with hrun | hran
    · exact hrunning.1 x hrun
    · exact Or.inr (hk.prefix_trace.subset hran)

/-- A logout that has been waited for goes on: the session that waits for it finds the old
one disconnected. -/
theorem loggedOut {st : AcceptorState} {i : ℕ} {caller : LogoutCaller} {error : Option JSError}
    (h : Orderly st.lifecycle) (hf : st.tasks[i]? = some (.logoutSent s caller error))
    (hs : ∀ x, st.registry.get? (st.sessions s).sessionId = some x → x ≠ s →
      st.lifecycle.loggedOn x = false)
    (hdone : ∀ r dropped, caller = .registration r dropped → k'.timer s = false)
    (hk : TearDowns [s] (st.lifecycle.taken (caller.pending s)) k') :
    Orderly (k'.settled caller) := by
  obtain ⟨k1, hk1, heq, hsame⟩ := loggedOut_settled hf hk
  have hended := h.tearDowns (List.forall_mem_singleton.mpr hs) hk1
  have hpending : k'.pending = (st.lifecycle.taken (caller.pending s)).pending :=
    hk.untouched.pending
  have htimer : k'.timer = k1.timer := by
    have hsettled := congrArg Lifecycle.timer heq
    rwa [settled_eq] at hsettled
  have hregistering : k1.registering = st.lifecycle.registering :=
    congrArg (Multiset.filterMap Pending.registers) hk1.untouched.pending
  rw [heq] at hsame ⊢
  refine hended.withPending (hsame.trans hregistering.symm) fun r old hmem hnot x hx => ?_
  rw [hk1.untouched.pending] at hnot
  match caller with
  | .user => exact absurd (hpending ▸ hmem) hnot
  | .closeAll n => exact absurd (hpending ▸ hmem) hnot
  | .registration r' dropped =>
    rcases Multiset.mem_cons.mp hmem with heq' | hmem'
    · cases heq'
      have hwaiting := mem_pending_of_task hf (p := .registering r (some s)) rfl
      rw [← hk1.untouched.pending] at hwaiting
      rcases hended.awaited r (some s) hwaiting x hx with hxr | hdead | hold
      · exact Or.inl hxr
      · exact Or.inr (Or.inl hdead)
      · cases hold
        exact Or.inr (Or.inl (htimer ▸ hdone r dropped rfl))
    · rw [hpending] at hmem'
      exact absurd (Multiset.mem_of_mem_erase hmem') hnot

/-! ## Registrations -/

/-- A session is stored where only itself or a session without timers stands, and no
registration of its id is under way. -/
theorem register (hloggedOn : ∀ x, k.loggedOn x = true → k.timer x = true ∧
      (x = s ∨ k.registry.get? (k.sessionId x) = some x ∨ x ∈ k.registering))
    (hdifferent : (k.registering.map k.sessionId).Nodup)
    (hawaited : ∀ r old, .registering r old ∈ k.pending → ∀ x,
      k.registry.get? (k.sessionId r) = some x → x = r ∨ k.timer x = false ∨ old = some x)
    (hdisconnected : ∀ x < k.nextSession, k.timer x = true ∨ .ran x .disconnected ∈ k.trace)
    (hfree : ∀ r ∈ k.registering, k.sessionId r ≠ k.sessionId s)
    (hs : ∀ x, k.registry.get? (k.sessionId s) = some x → x = s ∨ k.timer x = false) :
    Orderly (k.register s) := by
  refine ⟨fun x hx => ?_, hdifferent, fun r old hr x hx => ?_, hdisconnected⟩
  · obtain ⟨hrun, hplace⟩ := hloggedOn x hx
    refine ⟨hrun, ?_⟩
    rcases hplace with rfl | hid | hreg
    · exact Or.inl (OrderedMap.get?_set_self ..)
    · by_cases hxs : k.sessionId x = k.sessionId s
      · rcases hs x (hxs ▸ hid) with rfl | hdead
        · exact Or.inl (OrderedMap.get?_set_self ..)
        · rw [hrun] at hdead
          cases hdead
      · exact Or.inl ((OrderedMap.get?_set_of_ne _ _ hxs).trans hid)
    · exact Or.inr hreg
  · have hne : k.sessionId r ≠ k.sessionId s := hfree r (mem_registering.mpr ⟨old, hr⟩)
    exact hawaited r old hr x ((OrderedMap.get?_set_of_ne _ _ hne).symm.trans hx)

/-- A registration begins to wait. -/
theorem suspend_registering (h : Orderly k) {old : Option ℕ}
    (hfree : ∀ r ∈ k.registering, k.sessionId r ≠ k.sessionId s)
    (hold : ∀ x, k.registry.get? (k.sessionId s) = some x →
      x = s ∨ k.timer x = false ∨ old = some x) : Orderly (k.suspend (.registering s old)) := by
  refine ⟨fun x hx => ?_, ?_, fun r o hr x hx => ?_, h.disconnected⟩
  · rw [registering_suspend, Multiset.mem_cons]
    exact (h.loggedOn x hx).imp_right (Or.imp_right Or.inr)
  · rw [registering_suspend, Multiset.map_cons, Multiset.nodup_cons]
    refine ⟨fun hmem => ?_, h.different⟩
    obtain ⟨r, hr, hid⟩ := Multiset.mem_map.mp hmem
    exact hfree r hr hid
  · rcases Multiset.mem_cons.mp hr with heq | hr
    · cases heq
      exact hold x hx
    · exact h.awaited r o hr x hx

/-- A registration begins, and ends at once if its id is free. -/
theorem registering {states : ℕ → SessionState} (h : Orderly k)
    (hfree : ∀ r ∈ k.registering, k.sessionId r ≠ k.sessionId s)
    (hold : ∀ x, k.registry.get? (k.sessionId s) = some x → states x = .disconnected →
      x = s ∨ k.timer x = false) (hk : Registering states s k k') : Orderly k' := by
  cases hk with
  | finished hnone hk =>
    cases hk with
    | stored =>
      refine register (fun x hx => (h.loggedOn x hx).imp_right Or.inr) h.different h.awaited
        h.disconnected hfree fun x hx => ?_
      rw [hnone] at hx
      cases hx
    | refused => exact h
    | unhandled => exact h.observe _
  | @retry old hentry hstate =>
    refine h.suspend_registering hfree fun x hx => ?_
    obtain rfl := Option.some.inj (hentry.symm.trans hx)
    exact (hold old hentry hstate).imp_right Or.inl
  | waiting hentry =>
    exact h.suspend_registering hfree fun x hx => Or.inr (Or.inr (hentry.symm.trans hx))

/-- The registrations under way have different ids: one that ends leaves none of its own. -/
theorem resumed (h : Orderly k) {old : Option ℕ} (hp : .registering s old ∈ k.pending) :
    let m := (k.resume (.registering s old)).registering
    (m.map k.sessionId).Nodup ∧ ∀ r ∈ m, k.sessionId r ≠ k.sessionId s := by
  have hdifferent := h.different
  rw [← registering_resume hp, Multiset.map_cons, Multiset.nodup_cons] at hdifferent
  refine ⟨hdifferent.2, fun r hr hid => hdifferent.1 ?_⟩
  exact hid ▸ Multiset.mem_map_of_mem k.sessionId hr

/-- A registration that has waited ends. -/
theorem registered (h : Orderly k) (hp : .registering s none ∈ k.pending)
    (hlimit : k.loggedOn s = true → k.limitReached = false)
    (hk : Registered s (k.resume (.registering s none)) k') : Orderly k' := by
  obtain ⟨hdifferent, hfree⟩ := h.resumed hp
  have hcons := registering_resume hp
  have hawaited : ∀ r old, .registering r old ∈ (k.resume (.registering s none)).pending → ∀ x,
      k.registry.get? (k.sessionId r) = some x → x = r ∨ k.timer x = false ∨ old = some x :=
    fun r old hr => h.awaited r old (Multiset.mem_of_mem_erase hr)
  have hloggedOn : ∀ x, k.loggedOn x = true → k.timer x = true ∧ (x = s ∨
      k.registry.get? (k.sessionId x) = some x ∨
        x ∈ (k.resume (.registering s none)).registering) := by
    intro x hx
    obtain ⟨hrun, hid | hreg⟩ := h.loggedOn x hx
    · exact ⟨hrun, Or.inr (Or.inl hid)⟩
    · rw [← hcons, Multiset.mem_cons] at hreg
      exact ⟨hrun, hreg.imp_right Or.inr⟩
  have hrefused : k.limitReached = true → Orderly (k.resume (.registering s none)) := by
    refine fun hreached => ⟨fun x hx => ?_, hdifferent, hawaited, h.disconnected⟩
    obtain ⟨hrun, rfl | hplace⟩ := hloggedOn x hx
    · rw [hlimit hx] at hreached
      cases hreached
    · exact ⟨hrun, hplace⟩
  cases hk with
  | stored =>
    refine register hloggedOn hdifferent hawaited h.disconnected hfree fun x hx => ?_
    exact (h.awaited s none hp x hx).imp_right fun hdead => hdead.resolve_right (by simp)
  | refused hreached => exact hrefused hreached
  | unhandled hreached => exact (hrefused hreached).observe _

/-- A new session. -/
theorem create (h : Orderly k) (hwf : WellFormed k) (id : JSString) (c : ℕ) :
    Orderly (k.create id c) := by
  have hsession : ∀ x, x < k.nextSession → (k.create id c).sessionId x = k.sessionId x :=
    fun x hx => Function.update_of_ne (Nat.ne_of_lt hx) ..
  have htimer : ∀ x, x < k.nextSession → (k.create id c).timer x = k.timer x :=
    fun x hx => Function.update_of_ne (Nat.ne_of_lt hx) ..
  have hregistering : ∀ x ∈ k.registering, x < k.nextSession := by
    intro x hx
    obtain ⟨old, hold⟩ := mem_registering.mp hx
    exact hwf.registering x old hold
  refine ⟨fun x hx => ?_, ?_, fun r old hr x hx => ?_, fun x hx => ?_⟩
  · have hne : x ≠ k.nextSession := by
      rintro rfl
      simp [Lifecycle.create] at hx
    have hxk : k.loggedOn x = true := by simpa [Lifecycle.create, hne] using hx
    obtain ⟨hrun, hplace⟩ := h.loggedOn x hxk
    have hlt := hwf.timer x hrun
    rw [htimer x hlt, hsession x hlt]
    exact ⟨hrun, hplace⟩
  · have hmap : k.registering.map (k.create id c).sessionId = k.registering.map k.sessionId :=
      Multiset.map_congr rfl fun x hx => hsession x (hregistering x hx)
    exact hmap ▸ h.different
  · rw [hsession r (hwf.registering r old hr)] at hx
    rw [htimer x (hwf.entry _ x hx).2]
    exact h.awaited r old hr x hx
  · by_cases hxn : x = k.nextSession
    · subst x
      exact Or.inl (Function.update_self ..)
    · have hlt : x < k.nextSession := by
        have hx' : x < k.nextSession + 1 := hx
        omega
      rw [htimer x hlt]
      exact h.disconnected x hlt

theorem handled {m : Message} (h : Orderly k)
    (hlogout : m.getField Fields.msgType = MsgType.logout →
      ∀ x, k.registry.get? (k.sessionId s) = some x → x ≠ s → k.loggedOn x = false)
    (hlogon : m.getField Fields.msgType = MsgType.logon → k.timer s = true ∧
      (k.registry.get? (k.sessionId s) = some s ∨ s ∈ k.registering))
    (hk : Handled s m k k') : Orderly k' := by
  cases hk with
  | unanswered hm => exact h.logOn (hlogon hm)
  | answered hm => exact (h.logOn (hlogon hm)).observe _
  | logout hm hk => exact h.tearDowns (List.forall_mem_singleton.mpr (hlogout hm)) hk
  | other => exact h

/-- No registration waits for a session with the id of one that is created. -/
theorem sessionId_ne_of_create {id : JSString} {c : ℕ} (hwf : WellFormed k)
    (hfree : ∀ r ∈ k.registering, k.sessionId r ≠ id) :
    ∀ r ∈ k.registering, (k.create id c).sessionId r ≠ id := by
  intro r hr
  obtain ⟨old, hold⟩ := mem_registering.mp hr
  have hne := Nat.ne_of_lt (hwf.registering r old hold)
  exact (Function.update_of_ne hne ..).trans_ne (hfree r hr)

/-- A session is created for a Logon, and its registration ends or has to wait. -/
theorem created {states : ℕ → SessionState} {id : JSString} {c : ℕ} (h : Orderly k)
    (hwf : WellFormed k) (hfree : ∀ r ∈ k.registering, k.sessionId r ≠ id)
    (hold : ∀ x, k.registry.get? id = some x → states x = .disconnected → k.timer x = false)
    (hk : Registering (Function.update states k.nextSession .disconnected) k.nextSession
      (k.create id c) k') : Orderly k' := by
  have hid : (k.create id c).sessionId k.nextSession = id := Function.update_self ..
  refine (h.create hwf id c).registering (fun r hr => ?_) (fun x hx hstate => ?_) hk
  · rw [hid]
    exact sessionId_ne_of_create hwf hfree r hr
  · rw [hid] at hx
    have hne := Nat.ne_of_lt (hwf.entry id x hx).2
    rw [Function.update_of_ne hne] at hstate
    exact Or.inr ((Function.update_of_ne hne ..).trans (hold x hx hstate))

/-- A session is created and stored at once. -/
theorem createStored {id : JSString} {c : ℕ} (h : Orderly k) (hwf : WellFormed k)
    (hfree : ∀ r ∈ k.registering, k.sessionId r ≠ id)
    (hold : ∀ x, k.registry.get? id = some x → k.timer x = false) :
    Orderly ((k.create id c).register k.nextSession) := by
  have hid : (k.create id c).sessionId k.nextSession = id := Function.update_self ..
  have hcreate := h.create hwf id c
  refine register (fun x hx => (hcreate.loggedOn x hx).imp_right Or.inr) hcreate.different
    hcreate.awaited hcreate.disconnected (fun r hr => ?_) fun x hx => ?_
  · rw [hid]
    exact sessionId_ne_of_create hwf hfree r hr
  · rw [hid] at hx
    have hne := Nat.ne_of_lt (hwf.entry id x hx).2
    exact Or.inr ((Function.update_of_ne hne ..).trans (hold x hx))

/-! ## Steps -/

/-- Every change keeps it that meets the condition. -/
theorem change {st : AcceptorState} {e : Step} (h : Orderly st.lifecycle)
    (hwf : WellFormed st.lifecycle) (hguard : RegistersInTurn st e) (hk : Change st e k') :
    Orderly k' := by
  obtain ⟨hbegins, hlogout, ⟨hlogsOn, hstores⟩, hspares, hclears⟩ := hguard
  have hends : ∀ s ∈ st.ends e.event, ∀ x,
      st.lifecycle.registry.get? (st.lifecycle.sessionId s) = some x → x ≠ s →
        st.lifecycle.loggedOn x = false :=
    fun s hs x hx hne => decide_eq_false (hspares s hs x hx hne)
  cases hk with
  | kept => exact h
  | @processed _ c ms _ hin hk =>
    cases hk with
    | @routed m s _ hm hs hk =>
      refine (h.observe (.dispatched c s m)).handled (fun hlogout => ?_) (fun hlogon => ?_) hk
      · exact hends s (by simp [ends_processed hin hm hs hlogout])
      · simp [Lifecycle.routed, routable, hlogon] at hs
    | unrouted => exact h
  | connected => exact ⟨h.loggedOn, h.different, h.awaited, h.disconnected⟩
  | @created i c m rest input k1 hf hk =>
    obtain ⟨hfree, hyields⟩ := hbegins (buildSessionId m) (by simp [AcceptorState.begins, hf])
    refine (h.created hwf hfree (fun x hx hstate => ?_) hk).suspend_starting c
    have hyield := hyields x hx
    simp only [AcceptorState.yields, hstate, ne_eq, not_true_eq_false, decide_false,
      Bool.false_or, Bool.not_eq_true'] at hyield
    exact hyield
  | @started i c s m rest input _ hf hk =>
    have hstarting := mem_pending_of_task hf rfl
    have hresume := h.resume_starting hstarting
    have hlisten : Orderly ((st.lifecycle.resume (.starting c s)).listen c (.session s)) :=
      ⟨hresume.loggedOn, hresume.different, hresume.awaited, hresume.disconnected⟩
    refine hlisten.handled (fun hlogout => ?_) (fun hlogon => ?_) hk
    · exact hends s (by simp [ends_started hf hlogout])
    · obtain ⟨hrun, hplace⟩ := hlogsOn s (by simp [AcceptorState.logsOn, hf, hlogon])
      have hsame := registering_resume_starting hstarting
      exact ⟨hrun, hplace.imp_right fun hmem => hsame ▸ mem_registering_state.mpr hmem⟩
  | @loggedOut i s caller error input k1 hf hk hdone =>
    refine h.loggedOut hf (hends s (by simp [ends_loggedOut hf])) ?_ hk
    rintro r dropped rfl
    exact hdone.resolve_right (not_not.mpr (hlogout (by simp [AcceptorState.logsOutOld, hf])))
  | @registered i s dropped input _ hf hk =>
    refine h.registered (mem_pending_of_task hf rfl) (fun hlogged => ?_) hk
    exact hstores s (by simp [AcceptorState.stores, hf]) (of_decide_eq_true hlogged)
  | @cleared i k stopping input hf =>
    refine h.erase (fun _ _ hid => by cases hid) fun x hx hid => ?_
    have hkeys := OrderedMap.mem_keys_of_mem (OrderedMap.get?_eq_some_iff.mp hid)
    have hclears' : st.clears (.resume i) = st.registry.keys := by simp [AcceptorState.clears, hf]
    exact absurd (of_decide_eq_true hx) (hclears _ (hclears' ▸ hkeys) x hid)
  | closed => exact ⟨h.loggedOn, h.different, h.awaited, h.disconnected⟩
  | ended => exact ⟨h.loggedOn, h.different, h.awaited, h.disconnected⟩
  | @cleaned c ls input _ hclosing hk =>
    have hclosing' : Orderly (st.lifecycle.setClosing (some (c, ls))) :=
      ⟨h.loggedOn, h.different, h.awaited, h.disconnected⟩
    exact hclosing'.tearDowns (fun x hx => hends x (by rwa [ends_cleaned hclosing])) hk
  | @listened c s ls input _ hclosing hk =>
    have hclosing' : Orderly (st.lifecycle.setClosing (some (c, ls))) :=
      ⟨h.loggedOn, h.different, h.awaited, h.disconnected⟩
    refine hclosing'.tearDowns (fun x hx => hends x ?_) hk.tearDowns
    simpa [ends_listened hclosing] using hx
  | @threw c s ls input b _ hclosing hk =>
    have hclosing' : Orderly (st.lifecycle.setClosing (some (c, ls))) :=
      ⟨h.loggedOn, h.different, h.awaited, h.disconnected⟩
    have hended := hclosing'.tearDowns (fun x hx => hends x ?_) hk.tearDowns
    · exact ⟨hended.loggedOn, hended.different, hended.awaited, hended.disconnected⟩
    · simpa [ends_listened hclosing] using hx
  | @handled s m input _ hk =>
    refine h.handled (fun hlogout => ?_) (fun hlogon => ?_) hk
    · exact hends s (by simp [ends_handled hlogout])
    · exact hlogsOn s (by simp [AcceptorState.logsOn, hlogon])
  | created' => exact h.create hwf _ _
  | @stored config c input hlimit =>
    obtain ⟨hfree, hyields⟩ := hbegins (sessionKey config.senderCompId config.targetCompId)
      (by simp [AcceptorState.begins, hlimit])
    refine h.createStored hwf hfree fun x hx => ?_
    have hyield := hyields x hx
    rwa [AcceptorState.yields, Bool.not_eq_true'] at hyield
  | @registering s input _ hk =>
    obtain ⟨hfree, hyields⟩ := hbegins (st.sessions s).sessionId rfl
    refine h.registering hfree (fun x hx hstate => ?_) hk
    have hyield := hyields x hx
    simp only [AcceptorState.yields, hstate, ne_eq, not_true_eq_false, decide_false,
      Bool.or_false, Bool.or_eq_true, decide_eq_true_eq, Bool.not_eq_true'] at hyield
    exact hyield
  | @removed id input =>
    refine h.erase (fun id' x hid => ?_) fun x hx hid => ?_
    · rw [OrderedMap.get?_erase] at hid
      split at hid
      · cases hid
      · exact hid
    · have hne : st.lifecycle.sessionId x ≠ id := by
        rintro rfl
        have hnot := hclears _ (by simp [AcceptorState.clears]) x hid
        exact hnot (of_decide_eq_true hx)
      exact (OrderedMap.get?_erase ..).trans ((if_neg hne).trans hid)

/-- An entry after a session was stored is that session's or an old one. -/
theorem entry_of_register {id : JSString} (hid : (k.register s).registry.get? id = some x) :
    id = k.sessionId s ∧ x = s ∨ k.registry.get? id = some x := by
  have hset := (OrderedMap.get?_set ..).symm.trans hid
  split at hset
  · next heq => exact Or.inl ⟨heq, (Option.some.inj hset).symm⟩
  · exact Or.inr hset

theorem entry_of_registered {id : JSString} (hk : Registered s k k')
    (hid : k'.registry.get? id = some x) :
    id = k.sessionId s ∧ x = s ∨ k.registry.get? id = some x := by
  cases hk with
  | stored => exact entry_of_register hid
  | refused => exact Or.inr hid
  | unhandled => exact Or.inr hid

/-- A registration that begins only stores a session under a free id. -/
theorem entry_of_registering {states : ℕ → SessionState} {id : JSString}
    (hk : Registering states s k k') (hid : k'.registry.get? id = some x) :
    k.registry.get? id = none ∨ k.registry.get? id = some x := by
  cases hk with
  | finished hfree hk =>
    refine (entry_of_registered hk hid).imp_left ?_
    rintro ⟨rfl, _⟩
    exact hfree
  | retry => exact Or.inr hid
  | waiting => exact Or.inr hid

theorem entry_of_handled {id : JSString} {m : Message} (hk : Handled s m k k')
    (hid : k'.registry.get? id = some x) : k.registry.get? id = some x := by
  cases hk with
  | unanswered => exact hid
  | answered => exact hid
  | logout _ hk => exact hk.get?_of hid
  | other => exact hid

/-- A change only replaces the entry of a session without timers. -/
theorem replaces {st : AcceptorState} {e : Step} {id : JSString} {old new : ℕ}
    (h : Orderly st.lifecycle) (hguard : RegistersInTurn st e) (hk : Change st e k')
    (hold : st.registry.get? id = some old) (hnew : k'.registry.get? id = some new)
    (hne : new ≠ old) : st.lifecycle.timer old = false := by
  -- most changes store nothing
  have hsame : st.registry.get? id = some new → st.lifecycle.timer old = false :=
    fun hmem => absurd (Option.some.inj (hmem.symm.trans hold)) hne
  have hregistering : st.registry.get? id = none ∨ st.registry.get? id = some new →
      st.lifecycle.timer old = false := by
    rintro (hnone | hmem)
    · cases hnone.symm.trans hold
    · exact hsame hmem
  cases hk with
  | kept => exact hsame hnew
  | processed _ hk =>
    cases hk with
    | routed _ _ hk => exact hsame (entry_of_handled hk hnew)
    | unrouted => exact hsame hnew
  | connected => exact hsame hnew
  | created _ hk => exact hregistering (entry_of_registering hk hnew)
  | started _ hk => exact hsame (entry_of_handled hk hnew)
  | loggedOut hf hk =>
    obtain ⟨k1, hk1, heq, _⟩ := loggedOut_settled hf hk
    rw [heq] at hnew
    exact hsame (hk1.get?_of hnew)
  | @registered i s dropped input _ hf hk =>
    rcases entry_of_registered hk hnew with ⟨rfl, rfl⟩ | hmem
    · have hawaited := h.awaited new none (mem_pending_of_task hf rfl) old hold
      exact (hawaited.resolve_left hne.symm).resolve_right (by simp)
    · exact hsame hmem
  | cleared => cases hnew
  | closed => exact hsame hnew
  | ended => exact hsame hnew
  | cleaned _ hk => exact hsame (hk.get?_of hnew)
  | listened _ hk => exact hsame (hk.get?_of hnew)
  | threw _ hk => exact hsame (hk.get?_of hnew)
  | handled hk => exact hsame (entry_of_handled hk hnew)
  | created' => exact hsame hnew
  | @stored config c input hlimit =>
    rcases entry_of_register hnew with ⟨hid, _⟩ | hmem
    · have hkey : id = sessionKey config.senderCompId config.targetCompId :=
        hid.trans (Function.update_self ..)
      obtain ⟨_, hyields⟩ := hguard.1 (sessionKey config.senderCompId config.targetCompId)
        (by simp [AcceptorState.begins, hlimit])
      have hyield := hyields old (hkey ▸ hold)
      rwa [AcceptorState.yields, Bool.not_eq_true'] at hyield
    · exact hsame hmem
  | registering hk => exact hregistering (entry_of_registering hk hnew)
  | removed =>
    have herase := (OrderedMap.get?_erase ..).symm.trans hnew
    split at herase
    · cases herase
    · exact hsame herase

end Orderly

/-! ## Runs -/

theorem orderly_new (config : AcceptorConfig) : Orderly (AcceptorState.new config).lifecycle := by
  refine ⟨fun _ hs => ?_, Multiset.nodup_zero, fun _ _ hs => ?_, fun s hs => ?_⟩
  · cases hs
  · cases hs
  · exact absurd hs (Nat.not_lt_zero s)

theorem orderly_of_reached {st : AcceptorState} (h : acceptor.Reached RegistersInTurn st) :
    Orderly st.lifecycle := by
  have hboth := lifecycle_of_reached (P := fun k => WellFormed k ∧ Orderly k)
    (fun config => ⟨wellFormed_new config, orderly_new config⟩) ?_ ?_ h
  · exact hboth.2
  · exact fun k k' ⟨hwf, hk⟩ hlower => ⟨hwf.lowered hlower, hk.lowered hlower⟩
  · exact fun st e k' ⟨hwf, hk⟩ hguard henabled hk' =>
      ⟨hwf.change henabled hk', hk.change hwf hguard hk'⟩

/-- In every run that meets the condition, each step only replaces the entries of sessions
that have been disconnected, and once no registration is under way, at most one session per
id is LOGGED_ON. -/
theorem noOrphans_of_reached {st : AcceptorState} (h : acceptor.Reached RegistersInTurn st) :
    (∀ e st', RegistersInTurn st e → st.step e = some st' → st.ReplacesDisconnected st') ∧
      st.OneLoggedOnPerId := by
  have horderly := orderly_of_reached h
  have hwf := wellFormed_of_reached h
  refine ⟨fun e st' hguard hstep id old new hold hnew hne => ?_, fun hnone s _ s' _ hs hs' hid => ?_⟩
  · obtain ⟨k', hk', hst'⟩ := step_change hstep
    rw [hst'.registry] at hnew
    have htimer := horderly.replaces hguard hk' hold hnew hne
    refine ⟨?_, htimer⟩
    rcases horderly.disconnected old (hwf.entry id old hold).2 with hrun | hran
    · rw [htimer] at hrun
      cases hrun
    · exact List.mem_of_mem_filter hran
  · have hregistered : ∀ x, (st.sessions x).state = .loggedOn →
        st.registry.get? (st.sessions x).sessionId = some x := by
      intro x hx
      refine (horderly.loggedOn x (decide_eq_true hx)).2.resolve_right fun hmem => ?_
      rw [mem_registering_state, hnone] at hmem
      cases hmem
    have hentry := hregistered s hs
    rw [hid, hregistered s' hs'] at hentry
    exact (Option.some.inj hentry).symm

/-- A client logs on over a second connection while its first session is still there. -/
def duplicateSteps : List Step :=
  (Event.connect (js "client:1")).calmly :: (Event.connect (js "client:2")).calmly ::
    logonSteps 0 (js "CLIENT") ++
      ([Event.data 1 (logonBytes (js "CLIENT")), .resume 0, .resume 1, .resume 1, .resume 1,
        .resume 1, .resume 1, .resume 0, .resume 0].map Event.calmly)

/-- The old session is logged out before the new one takes its place. -/
theorem noOrphans_duplicate : ∃ st ∈ acceptor.exec (broker 0) duplicateSteps,
    ((st.sessions 1).state = .loggedOn ∧ .ran 0 .disconnected ∈ st.trace) ∧
      (∀ e st', RegistersInTurn st e → st.step e = some st' → st.ReplacesDisconnected st') ∧
        st.OneLoggedOnPerId := by
  have hguarded : acceptor.Guarded RegistersInTurn (broker 0) duplicateSteps := by decide +kernel
  have hrun : ∃ st ∈ acceptor.exec (broker 0) duplicateSteps,
      (st.sessions 1).state = .loggedOn ∧ .ran 0 .disconnected ∈ st.trace := by decide +kernel
  obtain ⟨st, hst, hend⟩ := hrun
  have hreached : acceptor.Reached RegistersInTurn (broker 0) := .init ⟨_, rfl⟩
  exact ⟨st, hst, hend, noOrphans_of_reached (hreached.exec hguarded hst)⟩

/-- A client logs on a second and a third time before the logout of its first session has
been written. -/
def overlappingSteps : List Step :=
  [Event.connect (js "client:1"), .connect (js "client:2"), .connect (js "client:3")].map
    Event.calmly ++ logonSteps 0 (js "CLIENT") ++
      ([Event.data 1 (logonBytes (js "CLIENT")), .resume 0, .resume 1, .resume 1, .resume 1,
        .resume 1, .resume 1, .data 2 (logonBytes (js "CLIENT")), .resume 1, .resume 2, .resume 2,
        .resume 2, .resume 2, .resume 2, .resume 0, .resume 1, .resume 0, .resume 0].map
          Event.calmly)

/-- The second session and the third one are both LOGGED_ON. -/
theorem not_noOrphans_overlapping :
    ∃ st ∈ acceptor.exec (broker 0) overlappingSteps, ¬ st.OneLoggedOnPerId := by
  have hrun : ∃ st ∈ acceptor.exec (broker 0) overlappingSteps,
      st.registering = [] ∧ 2 < st.nextSession ∧ (st.sessions 1).state = .loggedOn ∧
        (st.sessions 2).state = .loggedOn ∧
        (st.sessions 1).sessionId = (st.sessions 2).sessionId := by decide +kernel
  obtain ⟨st, hst, hnone, hlt, hone, htwo, hid⟩ := hrun
  refine ⟨st, hst, fun h => ?_⟩
  have hsame := h hnone 1 (by omega) 2 hlt hone htwo hid
  omega

end NestQuickfix.Acceptor
