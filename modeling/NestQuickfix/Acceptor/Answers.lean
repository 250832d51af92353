import NestQuickfix.Acceptor.Registrations

/-!
# Answered Logons

`createNewSession` does not wait for the registration it starts, so the Logon may be
answered before the session is registered, and also when the registration fails. Answered
sessions are registered as long as no registration is under way when a Logon is answered,
none meets the limit, and no entry of a running session is removed or replaced.
-/

namespace NestQuickfix.Acceptor

open Lib Lifecycle

/-- Answered sessions are registered, and Logons whose registrations fail are refused. -/
structure AcceptorState.AnswersRegistered (st : AcceptorState) : Prop where
  registered : ∀ s, .answered s ∈ st.trace → (st.sessions s).state = .loggedOn →
    (st.sessions s).heartbeatTimer = true →
    st.registry.get? (st.sessions s).sessionId = some s
  /-- The registration of a Logon fails without anybody handling it. -/
  refused : ∀ s e, .unhandled s e ∈ st.trace →
    .answered s ∉ st.trace ∧ (st.sessions s).state ≠ .loggedOn
  handled : ∀ s e, .unhandled s e ∉ st.trace

/-! ## The condition -/

/-- Whether a registration ends in an event. -/
def AcceptorState.endsRegistration (st : AcceptorState) : Event → Bool
  | .resume i =>
    match st.tasks[i]? with
    | some (.validated _ m _ .valid) => (st.registry.get? (buildSessionId m)).isNone
    | some (.registration ..) => true
    | _ => false
  | _ => false

/-- An event only removes or replaces the entries of the sessions it ends or stores, and of
sessions without timers. -/
def AcceptorState.SparesRunning (st : AcceptorState) (event : Event) : Prop :=
  (∀ s ∈ st.ends event ++ (st.stores event).toList,
    ∀ x ∈ st.registry.get? (st.sessions s).sessionId, x ≠ s →
      (st.sessions x).heartbeatTimer = false) ∧
  ∀ id ∈ st.clears event, ∀ x ∈ st.registry.get? id, (st.sessions x).heartbeatTimer = false

instance (st : AcceptorState) (event : Event) : Decidable (st.SparesRunning event) :=
  inferInstanceAs (Decidable ((∀ s ∈ st.ends event ++ (st.stores event).toList,
    ∀ x ∈ st.registry.get? (st.sessions s).sessionId, x ≠ s →
      (st.sessions x).heartbeatTimer = false) ∧
    ∀ id ∈ st.clears event, ∀ x ∈ st.registry.get? id, (st.sessions x).heartbeatTimer = false))

/-- Sessions come from Logons, registrations do not meet the limit, and running sessions keep
their entries. -/
def KeepsEntries (st : AcceptorState) (e : Step) : Prop :=
  e.event.fromLogons = true ∧ (st.endsRegistration e.event = true → st.limitReached = false) ∧
    st.SparesRunning e.event

instance : ∀ (st : AcceptorState) (e : Step), Decidable (KeepsEntries st e) :=
  fun st e => inferInstanceAs (Decidable (e.event.fromLogons = true ∧
    (st.endsRegistration e.event = true → st.limitReached = false) ∧ st.SparesRunning e.event))

/-- The condition: sessions come from Logons, a Logon is answered when its registration is
over, registrations do not meet the limit, and running sessions keep their entries. -/
def AnswersAfterRegistration (st : AcceptorState) (e : Step) : Prop :=
  e.event.fromLogons = true ∧ (∀ s ∈ st.logsOn e.event, s ∉ st.registering) ∧
    (st.endsRegistration e.event = true → st.limitReached = false) ∧ st.SparesRunning e.event

instance : ∀ (st : AcceptorState) (e : Step), Decidable (AnswersAfterRegistration st e) :=
  fun st e => inferInstanceAs (Decidable (e.event.fromLogons = true ∧
    (∀ s ∈ st.logsOn e.event, s ∉ st.registering) ∧
      (st.endsRegistration e.event = true → st.limitReached = false) ∧
        st.SparesRunning e.event))

/-! ## Placed sessions -/

/-- Every session with timers is registered, or its registration is under way and, if Logons
wait for that, it has not answered its Logon. -/
structure AllPlaced (waits : Prop) (k : Lifecycle) : Prop where
  placed : ∀ s, k.timer s = true → k.registry.get? (k.sessionId s) = some s ∨
    s ∈ k.registering ∧ (waits → .answered s ∉ k.trace)
  handled : ∀ s e, .unhandled s e ∉ k.trace
  answered : ∀ s, .answered s ∈ k.trace → s < k.nextSession

/-- No running session other than `s` stands under the id of `s`. -/
def OwnsId (s : ℕ) (k : Lifecycle) : Prop :=
  ∀ x, k.registry.get? (k.sessionId s) = some x → x ≠ s → k.timer x = false

namespace AllPlaced

variable {waits : Prop} {k k' : Lifecycle} {s x : ℕ}

/-- Other tasks may be pending as long as the same registrations are under way. -/
theorem withPending {pending : Multiset Pending} (h : AllPlaced waits k)
    (hsame : Lifecycle.registering { k with pending := pending } = k.registering) :
    AllPlaced waits { k with pending := pending } := by
  refine ⟨fun s hs => ?_, h.handled, h.answered⟩
  rw [hsame]
  exact h.placed s hs

theorem resume_starting {c : ℕ} (h : AllPlaced waits k) (hp : .starting c s ∈ k.pending) :
    AllPlaced waits (k.resume (.starting c s)) :=
  h.withPending (registering_resume_starting hp)

theorem suspend_starting (h : AllPlaced waits k) (c : ℕ) :
    AllPlaced waits (k.suspend (.starting c s)) :=
  h.withPending (registering_suspend_starting c)

theorem observe (h : AllPlaced waits k) {o : Observation} (hanswered : ∀ s, o ≠ .answered s)
    (hhandled : ∀ s e, o ≠ .unhandled s e) : AllPlaced waits (k.observe o) := by
  have hmem : ∀ o', o' ≠ o → (o' ∈ (k.observe o).trace ↔ o' ∈ k.trace) := by
    intro o' ho'
    rw [Lifecycle.observe, List.mem_append, List.mem_singleton, or_iff_left ho']
  refine ⟨fun s hs => ?_, fun s e => ?_, fun s hs => ?_⟩
  · rw [hmem _ (hanswered s).symm]
    exact h.placed s hs
  · rw [hmem _ (hhandled s e).symm]
    exact h.handled s e
  · exact h.answered s ((hmem _ (hanswered s).symm).mp hs)

/-- A session whose registration is over answers its Logon. -/
theorem answer (h : AllPlaced waits k) (hs : waits → s ∉ k.registering)
    (hlt : s < k.nextSession) : AllPlaced waits (k.observe (.answered s)) := by
  refine ⟨fun x hx => ?_, fun x e hmem => ?_, fun x hx => ?_⟩
  · refine (h.placed x hx).imp_right fun ⟨hreg, hnot⟩ => ⟨hreg, fun hwaits => ?_⟩
    rw [Lifecycle.observe, List.mem_append, List.mem_singleton, not_or]
    refine ⟨hnot hwaits, fun heq => ?_⟩
    cases heq
    exact hs hwaits hreg
  · rw [Lifecycle.observe, List.mem_append, List.mem_singleton, or_iff_left (by simp)] at hmem
    exact h.handled x e hmem
  · rw [Lifecycle.observe, List.mem_append, List.mem_singleton] at hx
    rcases hx with hx | heq
    · exact h.answered x hx
    · cases heq
      exact hlt

/-- Sessions end under whose ids no other running session stands. -/
theorem tearDowns {ss : List ℕ} (h : AllPlaced waits k) (hss : ∀ s ∈ ss, OwnsId s k)
    (hk : TearDowns ss k k') : AllPlaced waits k' := by
  have hu := hk.untouched
  have hpending : k'.registering = k.registering := by
    rw [Lifecycle.registering, Lifecycle.registering, hu.pending]
  refine ⟨fun x hx => ?_, fun x e => ?_, fun x hx => ?_⟩
  · rw [hk.mem_trace (by simp [disconnectReports]), hu.sessionId, hpending]
    have hxk := live_of_tearDowns timer_clearedByEnd hk hx
    exact (h.placed x hxk).imp_left (get?_tearDowns timer_clearedByEnd hk hss hx)
  · rw [hk.mem_trace (by simp [disconnectReports])]
    exact h.handled x e
  · rw [hu.nextSession]
    exact h.answered x ((hk.mem_trace (by simp [disconnectReports])).mp hx)

theorem handles {m : Message} (h : AllPlaced waits k)
    (hlogout : m.getField Fields.msgType = MsgType.logout → OwnsId s k)
    (hlogon : m.getField Fields.msgType = MsgType.logon →
      (waits → s ∉ k.registering) ∧ s < k.nextSession)
    (hk : Handled s m k k') : AllPlaced waits k' := by
  cases hk with
  | unanswered => exact ⟨h.placed, h.handled, h.answered⟩
  | answered hm =>
    have hlogged : AllPlaced waits (k.logOn s) := ⟨h.placed, h.handled, h.answered⟩
    exact hlogged.answer (hlogon hm).1 (hlogon hm).2
  | logout hm hk => exact h.tearDowns (List.forall_mem_singleton.mpr (hlogout hm)) hk
  | other => exact h

/-! ## Registrations -/

/-- A registration that has waited ends. -/
theorem registered {old : Option ℕ} (h : AllPlaced waits k) (hp : .registering s old ∈ k.pending)
    (hs : OwnsId s k) (hlimit : k.limitReached = false)
    (hk : Registered s (k.resume (.registering s old)) k') : AllPlaced waits k' := by
  have hcons := registering_resume hp
  cases hk with
  | stored =>
    refine ⟨fun x hx => ?_, h.handled, h.answered⟩
    by_cases hxs : x = s
    · subst x
      exact Or.inl (OrderedMap.get?_set_self ..)
    · rcases h.placed x hx with hid | ⟨hreg, hnot⟩
      · left
        have hne : k.sessionId x ≠ k.sessionId s := by
          intro heq
          have hdead := hs x (heq ▸ hid) hxs
          have hx' : k.timer x = true := hx
          rw [hdead] at hx'
          cases hx'
        exact (OrderedMap.get?_set_of_ne _ _ hne).trans hid
      · rw [← hcons, Multiset.mem_cons] at hreg
        exact Or.inr ⟨hreg.resolve_left hxs, hnot⟩
  | refused hreached => exact absurd (hlimit.symm.trans hreached) (by simp)
  | unhandled hreached => exact absurd (hlimit.symm.trans hreached) (by simp)

/-- A session is created for a Logon, and its registration ends or has to wait. -/
theorem created {states : ℕ → SessionState} {id : JSString} {c : ℕ} (h : AllPlaced waits k)
    (hlimit : k.registry.get? id = none → k.limitReached = false)
    (hk : Registering states k.nextSession (k.create id c) k') : AllPlaced waits k' := by
  have hid : (k.create id c).sessionId k.nextSession = id := Function.update_self ..
  have hanswered : ∀ x, .answered x ∈ k.trace → x < k.nextSession + 1 :=
    fun x hx => Nat.lt_succ_of_lt (h.answered x hx)
  have hold : ∀ x ≠ k.nextSession, (k.create id c).timer x = true →
      k.registry.get? ((k.create id c).sessionId x) = some x ∨
        x ∈ k.registering ∧ (waits → .answered x ∉ k.trace) := by
    intro x hx htimer
    have hsession : (k.create id c).sessionId x = k.sessionId x := Function.update_of_ne hx ..
    have htimer' : (k.create id c).timer x = k.timer x := Function.update_of_ne hx ..
    rw [hsession]
    exact h.placed x (htimer' ▸ htimer)
  have hwaiting : ∀ old,
      AllPlaced waits ((k.create id c).suspend (.registering k.nextSession old)) := by
    refine fun old => ⟨fun x hx => ?_, h.handled, hanswered⟩
    rw [registering_suspend, Multiset.mem_cons]
    by_cases hxn : x = k.nextSession
    · exact Or.inr ⟨Or.inl hxn, fun _ hmem => absurd (h.answered x hmem) (by omega)⟩
    · exact (hold x hxn hx).imp_right fun ⟨hreg, hnot⟩ => ⟨Or.inr hreg, hnot⟩
  cases hk with
  | finished hfree hk =>
    have hfree' : k.registry.get? id = none := hid ▸ hfree
    cases hk with
    | stored =>
      refine ⟨fun x hx => ?_, h.handled, hanswered⟩
      by_cases hxn : x = k.nextSession
      · subst x
        exact Or.inl (OrderedMap.get?_set_self ..)
      · refine (hold x hxn hx).imp_left fun hentry => ?_
        have hne : (k.create id c).sessionId x ≠ (k.create id c).sessionId k.nextSession := by
          intro heq
          rw [heq, hid, hfree'] at hentry
          cases hentry
        exact (OrderedMap.get?_set_of_ne _ _ hne).trans hentry
    | refused hreached => exact absurd ((hlimit hfree').symm.trans hreached) (by simp)
    | unhandled hreached => exact absurd ((hlimit hfree').symm.trans hreached) (by simp)
  | retry => exact hwaiting none
  | waiting => exact hwaiting _

/-- The entries under some ids are removed. -/
theorem erase {registry : OrderedMap JSString ℕ} (h : AllPlaced waits k)
    (hkept : ∀ x, k.timer x = true → k.registry.get? (k.sessionId x) = some x →
      registry.get? (k.sessionId x) = some x) : AllPlaced waits { k with registry := registry } :=
  ⟨fun x hx => (h.placed x hx).imp_left (hkept x hx), h.handled, h.answered⟩

/-! ## Steps -/

/-- Every change keeps it that meets the condition. -/
theorem change {st : AcceptorState} {e : Step} (h : AllPlaced waits st.lifecycle)
    (hwf : WellFormed st.lifecycle) (hkeeps : KeepsEntries st e)
    (hlogsOn : waits → ∀ s ∈ st.logsOn e.event, s ∉ st.registering)
    (henabled : st.enabled e.event = true) (hk : Change st e k') : AllPlaced waits k' := by
  obtain ⟨hlogons, hlimit, hspares, hclears⟩ := hkeeps
  have hends : ∀ s ∈ st.ends e.event, OwnsId s st.lifecycle :=
    fun s hs => hspares s (List.mem_append_left _ hs)
  cases hk with
  | kept => exact h
  | @processed _ c ms _ hin hk =>
    cases hk with
    | @routed m s _ hm hs hk =>
      have hobserve := h.observe (o := .dispatched c s m) (by simp) (by simp)
      refine hobserve.handles (fun hlogout => ?_) (fun hlogon => ?_) hk
      · exact hends s (by simp [ends_processed hin hm hs hlogout])
      · simp [Lifecycle.routed, routable, hlogon] at hs
    | unrouted => exact h
  | connected => exact ⟨h.placed, h.handled, h.answered⟩
  | @created i c m rest input k1 hf hk =>
    refine (h.created (fun hfree => ?_) hk).suspend_starting c
    refine hlimit ?_
    have hfree' : st.registry.get? (buildSessionId m) = none := hfree
    simp [AcceptorState.endsRegistration, hf, hfree']
  | @started i c s m rest input _ hf hk =>
    have hstarting := mem_pending_of_task hf rfl
    have hlisten : AllPlaced waits ((st.lifecycle.resume (.starting c s)).listen c (.session s)) :=
      let hresume := h.resume_starting hstarting
      ⟨hresume.placed, hresume.handled, hresume.answered⟩
    refine hlisten.handles (fun hlogout => ?_) (fun hlogon => ⟨?_, ?_⟩) hk
    · exact hends s (by simp [ends_started hf hlogout])
    · intro hwaits
      have hnot := hlogsOn hwaits s (by simp [AcceptorState.logsOn, hf, hlogon])
      have hsame := registering_resume_starting hstarting
      exact fun hmem => hnot (mem_registering_state.mp (hsame ▸ hmem))
    · exact (hwf.starting c s hstarting).2
  | @loggedOut i s caller error input k1 hf hk =>
    obtain ⟨k2, hk2, heq, hsame⟩ := loggedOut_settled hf hk
    have hended := h.tearDowns (fun x hx => hends x (by simpa [ends_loggedOut hf] using hx)) hk2
    have hpending : k2.registering = st.lifecycle.registering :=
      congrArg (Multiset.filterMap Pending.registers) hk2.untouched.pending
    rw [heq] at hsame ⊢
    exact hended.withPending (hsame.trans hpending.symm)
  | @registered i s dropped input _ hf hk =>
    refine h.registered (mem_pending_of_task hf rfl) ?_ ?_ hk
    · exact hspares s (List.mem_append_right _ (by simp [AcceptorState.stores, hf]))
    · exact hlimit (by simp [AcceptorState.endsRegistration, hf])
  | @cleared i k stopping input hf =>
    refine h.erase fun x hx hid => ?_
    have hkeys := OrderedMap.mem_keys_of_mem (OrderedMap.get?_eq_some_iff.mp hid)
    have hclears' : st.clears (.resume i) = st.registry.keys := by simp [AcceptorState.clears, hf]
    have hdead := hclears (st.lifecycle.sessionId x) (hclears' ▸ hkeys) x hid
    exact absurd (hdead.symm.trans hx) (by simp)
  | closed => exact ⟨h.placed, h.handled, h.answered⟩
  | ended => exact ⟨h.placed, h.handled, h.answered⟩
  | @cleaned c ls input _ hclosing hk =>
    have hclosing' : AllPlaced waits (st.lifecycle.setClosing (some (c, ls))) :=
      ⟨h.placed, h.handled, h.answered⟩
    exact hclosing'.tearDowns (fun x hx => hends x (by rwa [ends_cleaned hclosing])) hk
  | @listened c s ls input _ hclosing hk =>
    have hclosing' : AllPlaced waits (st.lifecycle.setClosing (some (c, ls))) :=
      ⟨h.placed, h.handled, h.answered⟩
    refine hclosing'.tearDowns (fun x hx => hends x ?_) hk.tearDowns
    simpa [ends_listened hclosing] using hx
  | @threw c s ls input b _ hclosing hk =>
    have hclosing' : AllPlaced waits (st.lifecycle.setClosing (some (c, ls))) :=
      ⟨h.placed, h.handled, h.answered⟩
    have hended := hclosing'.tearDowns (fun x hx => hends x ?_) hk.tearDowns
    · exact ⟨hended.placed, hended.handled, hended.answered⟩
    · simpa [ends_listened hclosing] using hx
  | @handled s m input _ hk =>
    refine h.handles (fun hlogout => ?_) (fun hlogon => ⟨?_, ?_⟩) hk
    · exact hends s (by simp [ends_handled hlogout])
    · exact fun hwaits => hlogsOn hwaits s (by simp [AcceptorState.logsOn, hlogon])
    · exact of_decide_eq_true (Bool.and_eq_true_iff.mp henabled).2
  | created' => cases hlogons
  | stored => cases hlogons
  | registering => cases hlogons
  | @removed id input =>
    refine h.erase fun x hx hid => ?_
    have hne : st.lifecycle.sessionId x ≠ id := by
      rintro rfl
      have hdead := hclears _ (by simp [AcceptorState.clears]) x hid
      exact absurd (hdead.symm.trans hx) (by simp)
    exact (OrderedMap.get?_erase ..).trans ((if_neg hne).trans hid)

end AllPlaced

theorem allPlaced_new (waits : Prop) (config : AcceptorConfig) :
    AllPlaced waits (AcceptorState.new config).lifecycle := by
  refine ⟨fun _ hs => ?_, fun _ _ hs => ?_, fun _ hs => ?_⟩
  all_goals cases hs

/-- In every run that keeps the entries of running sessions, these are registered or waiting. -/
theorem allPlaced_of_reached {waits : Prop} {guard : AcceptorState → Step → Prop}
    (hkeeps : ∀ st e, guard st e → KeepsEntries st e)
    (hlogsOn : waits → ∀ st e, guard st e → ∀ s ∈ st.logsOn e.event, s ∉ st.registering)
    {st : AcceptorState} (h : acceptor.Reached guard st) : AllPlaced waits st.lifecycle := by
  refine (lifecycle_of_reached (P := fun k => WellFormed k ∧ AllPlaced waits k)
    (fun config => ⟨wellFormed_new config, allPlaced_new waits config⟩) ?_ ?_ h).2
  · rintro k _ ⟨hwf, hk⟩ ⟨l, hl, rfl⟩
    exact ⟨hwf.lowered ⟨l, hl, rfl⟩, ⟨hk.placed, hk.handled, hk.answered⟩⟩
  · rintro st e k' ⟨hwf, hk⟩ hguard henabled hk'
    exact ⟨hwf.change henabled hk', hk.change hwf (hkeeps st e hguard)
      (fun hwaits => hlogsOn hwaits st e hguard) henabled hk'⟩

/-- In every run that meets the condition, every session that has answered its Logon and is
LOGGED_ON and not disconnected is registered, and no registration fails unhandled. -/
theorem answersRegistered_of_reached {st : AcceptorState}
    (h : acceptor.Reached AnswersAfterRegistration st) : st.AnswersRegistered := by
  have hplaced : AllPlaced True st.lifecycle := by
    refine allPlaced_of_reached (fun st e hguard => ?_) (fun _ st e hguard => hguard.2.1) h
    exact ⟨hguard.1, hguard.2.2⟩
  have hhandled : ∀ s e, .unhandled s e ∉ st.trace :=
    fun s e hmem => hplaced.handled s e (List.mem_filter.mpr ⟨hmem, rfl⟩)
  refine ⟨fun s hanswered _ htimer => ?_, fun s e hmem => absurd hmem (hhandled s e), hhandled⟩
  refine (hplaced.placed s htimer).resolve_right fun ⟨_, hnot⟩ => ?_
  exact hnot trivial (List.mem_filter.mpr ⟨hanswered, rfl⟩)

/-- A client logs on. -/
def soleLogonSteps : List Step :=
  (Event.connect (js "client:1")).calmly :: logonSteps 0 (js "CLIENT")

/-- The session of a single client is registered when its Logon is answered. -/
theorem answersRegistered_soleLogon : ∃ st ∈ acceptor.exec (broker 1) soleLogonSteps,
    .answered 0 ∈ st.trace ∧ st.AnswersRegistered := by
  have hguarded : acceptor.Guarded AnswersAfterRegistration (broker 1) soleLogonSteps := by
    decide +kernel
  have hrun : ∃ st ∈ acceptor.exec (broker 1) soleLogonSteps, .answered 0 ∈ st.trace := by
    decide +kernel
  obtain ⟨st, hst, hanswered⟩ := hrun
  have hreached : acceptor.Reached AnswersAfterRegistration (broker 1) := .init ⟨_, rfl⟩
  exact ⟨st, hst, hanswered, answersRegistered_of_reached (hreached.exec hguarded hst)⟩

/-- Two clients log on to a broker that allows one session. -/
def crowdedSteps : List Step :=
  (Event.connect (js "client:1")).calmly :: logonSteps 0 (js "ALICE") ++
    (Event.connect (js "client:2")).calmly :: logonSteps 1 (js "BOB")

/-- The second client is answered although the registration of its session has failed. -/
theorem not_answersRegistered_crowded :
    ∃ st ∈ acceptor.exec (broker 1) crowdedSteps, ¬ st.AnswersRegistered := by
  have hrun : ∃ st ∈ acceptor.exec (broker 1) crowdedSteps,
      .answered 1 ∈ st.trace ∧ (st.sessions 1).state = .loggedOn ∧
        (st.sessions 1).heartbeatTimer = true ∧
        st.registry.get? (st.sessions 1).sessionId = none := by decide +kernel
  obtain ⟨st, hst, hanswered, hstate, htimer, hnone⟩ := hrun
  refine ⟨st, hst, fun h => ?_⟩
  rw [h.registered 1 hanswered hstate htimer] at hnone
  cases hnone

end NestQuickfix.Acceptor
