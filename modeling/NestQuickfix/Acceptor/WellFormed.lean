import NestQuickfix.Acceptor.Steps

/-!
# Entries, tasks and listeners belong to their sessions

In every run a registry entry stands under the id of its session, a session waits
for its Logon and listens on the connection it was created for, and all of this
concerns sessions that have been created.
-/

namespace NestQuickfix.Acceptor

open Lib Lifecycle

/-- Entries, tasks and listeners belong to their sessions, and these have been created. -/
structure WellFormed (k : Lifecycle) : Prop where
  entry : ∀ id s, k.registry.get? id = some s → k.sessionId s = id ∧ s < k.nextSession
  registering : ∀ s old, .registering s old ∈ k.pending → s < k.nextSession
  starting : ∀ c s, .starting c s ∈ k.pending → k.socket s = c ∧ s < k.nextSession
  listener : ∀ c s, .session s ∈ k.listeners c → k.socket s = c ∧ s < k.nextSession
  closing : ∀ c ls, k.closing = some (c, ls) →
    k.closed c = true ∧ ∀ s, .session s ∈ ls → k.socket s = c ∧ s < k.nextSession
  timer : ∀ s, k.timer s = true → s < k.nextSession

namespace WellFormed

variable {k k' : Lifecycle}

theorem lowered (h : WellFormed k) (hk : Lowered k k') : WellFormed k' := by
  obtain ⟨l, _, rfl⟩ := hk
  exact ⟨h.entry, h.registering, h.starting, h.listener, h.closing, h.timer⟩

theorem observe (h : WellFormed k) (o : Observation) : WellFormed (k.observe o) :=
  ⟨h.entry, h.registering, h.starting, h.listener, h.closing, h.timer⟩

theorem logOn (h : WellFormed k) (s : ℕ) : WellFormed (k.logOn s) :=
  ⟨h.entry, h.registering, h.starting, h.listener, h.closing, h.timer⟩

theorem stop (h : WellFormed k) (s : ℕ) : WellFormed (k.stop s) := by
  refine ⟨h.entry, h.registering, h.starting, h.listener, h.closing, fun x hx => ?_⟩
  by_cases hxs : x = s
  · subst x
    simp [Lifecycle.stop] at hx
  · exact h.timer x (by simpa [Lifecycle.stop, hxs] using hx)

theorem strip (h : WellFormed k) (c : ℕ) : WellFormed (k.strip c) := by
  refine ⟨h.entry, h.registering, h.starting, fun d s hs => ?_, h.closing, h.timer⟩
  by_cases hd : d = c
  · subst d
    simp [Lifecycle.strip] at hs
  · exact h.listener d s (by simpa [Lifecycle.strip, hd] using hs)

theorem remove (h : WellFormed k) (id : JSString) : WellFormed (k.remove id) := by
  refine ⟨fun id' s hs => ?_, h.registering, h.starting, h.listener, h.closing, h.timer⟩
  rw [Lifecycle.remove, OrderedMap.get?_erase] at hs
  split at hs
  · cases hs
  · exact h.entry id' s hs

theorem clear (h : WellFormed k) : WellFormed k.clear := by
  refine ⟨fun _ _ hs => ?_, h.registering, h.starting, h.listener, h.closing, h.timer⟩
  cases hs

theorem register (h : WellFormed k) {s : ℕ} (hs : s < k.nextSession) :
    WellFormed (k.register s) := by
  refine ⟨fun id x hx => ?_, h.registering, h.starting, h.listener, h.closing, h.timer⟩
  rw [Lifecycle.register, OrderedMap.get?_set] at hx
  split at hx
  · next hid =>
    obtain rfl := Option.some.inj hx
    exact ⟨hid.symm, hs⟩
  · exact h.entry id x hx

theorem resume (h : WellFormed k) (p : Pending) : WellFormed (k.resume p) :=
  ⟨h.entry, fun s old hs => h.registering s old (Multiset.mem_of_mem_erase hs),
    fun c s hs => h.starting c s (Multiset.mem_of_mem_erase hs), h.listener, h.closing, h.timer⟩

theorem taken (h : WellFormed k) (p : Option Pending) : WellFormed (k.taken p) := by
  cases p with
  | none => exact h
  | some p => exact h.resume p

theorem suspend_registering (h : WellFormed k) {s : ℕ} (hs : s < k.nextSession)
    (old : Option ℕ) : WellFormed (k.suspend (.registering s old)) := by
  refine ⟨h.entry, fun x o hx => ?_, fun c x hx => ?_, h.listener, h.closing, h.timer⟩
  · rcases Multiset.mem_cons.mp hx with heq | hx
    · cases heq
      exact hs
    · exact h.registering x o hx
  · rcases Multiset.mem_cons.mp hx with heq | hx
    · cases heq
    · exact h.starting c x hx

theorem suspend_starting (h : WellFormed k) {s : ℕ} (hs : s < k.nextSession) :
    WellFormed (k.suspend (.starting (k.socket s) s)) := by
  refine ⟨h.entry, fun x o hx => ?_, fun c x hx => ?_, h.listener, h.closing, h.timer⟩
  · rcases Multiset.mem_cons.mp hx with heq | hx
    · cases heq
    · exact h.registering x o hx
  · rcases Multiset.mem_cons.mp hx with heq | hx
    · cases heq
      exact ⟨rfl, hs⟩
    · exact h.starting c x hx

theorem listen (h : WellFormed k) {c : ℕ} {l : CloseListener}
    (hl : ∀ s, l = .session s → k.socket s = c ∧ s < k.nextSession) :
    WellFormed (k.listen c l) := by
  refine ⟨h.entry, h.registering, h.starting, fun d s hs => ?_, h.closing, h.timer⟩
  by_cases hd : d = c
  · subst d
    simp only [Lifecycle.listen, Function.update_self, List.mem_append,
      List.mem_singleton] at hs
    rcases hs with hs | hs
    · exact h.listener c s hs
    · exact hl s hs.symm
  · exact h.listener d s (by simpa [Lifecycle.listen, hd] using hs)

/-- A new session is not mentioned by anything. -/
theorem create (h : WellFormed k) (id : JSString) (c : ℕ) : WellFormed (k.create id c) := by
  have hold : ∀ s, s < k.nextSession → s < (k.create id c).nextSession ∧
      (k.create id c).sessionId s = k.sessionId s ∧ (k.create id c).socket s = k.socket s := by
    intro s hs
    have hne : s ≠ k.nextSession := by omega
    refine ⟨Nat.lt_succ_of_lt hs, ?_, ?_⟩
    · simp [Lifecycle.create, hne]
    · simp [Lifecycle.create, hne]
  refine ⟨fun x s hs => ?_, fun s old hs => ?_, fun d s hs => ?_, fun d s hs => ?_,
    fun d ls hls => ?_, fun s hs => ?_⟩
  · obtain ⟨hx, hlt⟩ := h.entry x s hs
    exact ⟨(hold s hlt).2.1.trans hx, (hold s hlt).1⟩
  · exact (hold s (h.registering s old hs)).1
  · obtain ⟨hd, hlt⟩ := h.starting d s hs
    exact ⟨(hold s hlt).2.2.trans hd, (hold s hlt).1⟩
  · obtain ⟨hd, hlt⟩ := h.listener d s hs
    exact ⟨(hold s hlt).2.2.trans hd, (hold s hlt).1⟩
  · refine ⟨(h.closing d ls hls).1, fun s hs => ?_⟩
    obtain ⟨hd, hlt⟩ := (h.closing d ls hls).2 s hs
    exact ⟨(hold s hlt).2.2.trans hd, (hold s hlt).1⟩
  · by_cases hsn : s = k.nextSession
    · subst s
      exact Nat.lt_succ_self _
    · exact (hold s (h.timer s (by simpa [Lifecycle.create, hsn] using hs))).1

theorem close (h : WellFormed k) (c : ℕ) : WellFormed (k.close c) := by
  refine ⟨h.entry, h.registering, h.starting, h.listener, fun d ls hls => ?_, h.timer⟩
  obtain ⟨rfl, rfl⟩ := Prod.mk.inj (Option.some.inj hls)
  exact ⟨Function.update_self .., h.listener c⟩

theorem setClosing_none (h : WellFormed k) : WellFormed (k.setClosing none) := by
  refine ⟨h.entry, h.registering, h.starting, h.listener, fun _ _ hls => ?_, h.timer⟩
  cases hls

theorem setClosing_tail (h : WellFormed k) {c : ℕ} {l : CloseListener} {ls : List CloseListener}
    (hclosing : k.closing = some (c, l :: ls)) : WellFormed (k.setClosing (some (c, ls))) := by
  refine ⟨h.entry, h.registering, h.starting, h.listener, fun d ls' hls => ?_, h.timer⟩
  obtain ⟨rfl, rfl⟩ := Prod.mk.inj (Option.some.inj hls)
  obtain ⟨hclosed, hsockets⟩ := h.closing c (l :: ls) hclosing
  exact ⟨hclosed, fun s hs => hsockets s (List.mem_cons_of_mem l hs)⟩

/-! ## Steps -/

theorem tornDown (h : WellFormed k) {s : ℕ} {b : Bool} (hk : TornDown s k b k') :
    WellFormed k' := by
  have hreport := ((h.stop s).observe (.ran s .disconnected)).observe (.emitted s .disconnect)
  cases hk with
  | handlerThrew => exact (h.stop s).observe _
  | listenerThrew => exact hreport
  | done => exact (hreport.strip _).remove _

theorem tearDowns (h : WellFormed k) {ss : List ℕ} (hk : TearDowns ss k k') : WellFormed k' := by
  induction hk with
  | stop => exact h
  | next hone _ ih => exact ih (h.tornDown hone)

theorem handled (h : WellFormed k) {s : ℕ} {m : Message} (hk : Handled s m k k') :
    WellFormed k' := by
  cases hk with
  | unanswered => exact h.logOn s
  | answered => exact (h.logOn s).observe _
  | logout _ hk => exact h.tearDowns hk
  | other => exact h

theorem registered (h : WellFormed k) {s : ℕ} (hs : s < k.nextSession)
    (hk : Registered s k k') : WellFormed k' := by
  cases hk with
  | stored => exact h.register hs
  | refused => exact h
  | unhandled => exact h.observe _

theorem registering' (h : WellFormed k) {states : ℕ → SessionState} {s : ℕ}
    (hs : s < k.nextSession) (hk : Registering states s k k') : WellFormed k' := by
  cases hk with
  | finished _ hk => exact h.registered hs hk
  | retry => exact h.suspend_registering hs _
  | waiting => exact h.suspend_registering hs _

theorem create_registering (h : WellFormed k) {states : ℕ → SessionState} {id : JSString} {c : ℕ}
    (hk : Registering states k.nextSession (k.create id c) k') :
    WellFormed k' ∧ k'.socket k.nextSession = c ∧ k.nextSession < k'.nextSession := by
  have hcreate := h.create id c
  have hlt : k.nextSession < (k.create id c).nextSession := Nat.lt_succ_self _
  have hsocket : (k.create id c).socket k.nextSession = c := Function.update_self ..
  refine ⟨hcreate.registering' hlt hk, ?_⟩
  cases hk with
  | finished _ hk =>
    cases hk with
    | stored => exact ⟨hsocket, hlt⟩
    | refused => exact ⟨hsocket, hlt⟩
    | unhandled => exact ⟨hsocket, hlt⟩
  | retry => exact ⟨hsocket, hlt⟩
  | waiting => exact ⟨hsocket, hlt⟩

/-- Every change a step can make keeps it. -/
theorem change {st : AcceptorState} {e : Step} (h : WellFormed st.lifecycle)
    (henabled : st.enabled e.event = true) (hk : Change st e k') : WellFormed k' := by
  cases hk with
  | kept => exact h
  | processed _ hk =>
    cases hk with
    | routed _ _ hk => exact (h.observe _).handled hk
    | unrouted => exact h
  | connected => exact h.listen fun _ hs => by cases hs
  | created _ hk =>
    obtain ⟨hwf, hsocket, hlt⟩ := h.create_registering hk
    exact hsocket ▸ hwf.suspend_starting hlt
  | started hf hk =>
    have hstarting := h.starting _ _ (mem_pending_of_task hf rfl)
    refine ((h.resume _).listen fun s hs => ?_).handled hk
    cases hs
    exact hstarting
  | @loggedOut _ _ caller _ _ _ hf hk =>
    have hwf := (h.taken _).tearDowns hk
    match caller with
    | .user => exact hwf
    | .closeAll n => exact hwf
    | .registration s dropped =>
      have hs := h.registering _ _ (mem_pending_of_task hf rfl)
      exact hwf.suspend_registering (hk.untouched.nextSession ▸ hs) _
  | registered hf hk =>
    exact (h.resume _).registered (h.registering _ _ (mem_pending_of_task hf rfl)) hk
  | cleared => exact h.clear
  | closed => exact h.close _
  | ended => exact h.setClosing_none
  | cleaned hclosing hk => exact (h.setClosing_tail hclosing).tearDowns hk
  | listened hclosing hk => exact (h.setClosing_tail hclosing).tornDown hk
  | threw hclosing hk => exact ((h.setClosing_tail hclosing).tornDown hk).setClosing_none
  | handled hk => exact h.handled hk
  | created' => exact h.create _ _
  | stored => exact (h.create _ _).register (Nat.lt_succ_self _)
  | registering hk =>
    rw [AcceptorState.enabled, Bool.and_eq_true, decide_eq_true_iff] at henabled
    exact h.registering' henabled.2 hk
  | removed => exact h.remove _

end WellFormed

/-! ## Sockets and ids -/

theorem sameSessions_handled {k k' : Lifecycle} {s : ℕ} {m : Message} (h : Handled s m k k') :
    SameSessions k k' := by
  cases h with
  | logout _ hk => exact hk.untouched.toSameSessions
  | _ => exact ⟨rfl, rfl, rfl⟩

theorem sameSessions_registered {k k' : Lifecycle} {s : ℕ} (h : Registered s k k') :
    SameSessions k k' := by
  cases h <;> exact ⟨rfl, rfl, rfl⟩

theorem sameSessions_registering {k k' : Lifecycle} {states : ℕ → SessionState} {s : ℕ}
    (h : Registering states s k k') : SameSessions k k' := by
  cases h with
  | finished _ hk => exact sameSessions_registered hk
  | _ => exact ⟨rfl, rfl, rfl⟩

theorem keepsSessions_create {k k' : Lifecycle} {id : JSString} {c : ℕ}
    (h : SameSessions (k.create id c) k') : KeepsSessions k k' := by
  have hne : ∀ s, s < k.nextSession → s ≠ k.nextSession := fun s hs => by omega
  refine ⟨?_, fun s hs => ?_, fun s hs => ?_⟩
  · rw [h.nextSession]
    exact Nat.le_succ _
  · rw [h.sessionId]
    exact Function.update_of_ne (hne s hs) ..
  · rw [h.socket]
    exact Function.update_of_ne (hne s hs) ..

/-- Every change keeps the sessions there are. -/
theorem keepsSessions_change {st : AcceptorState} {e : Step} {k' : Lifecycle}
    (h : Change st e k') : KeepsSessions st.lifecycle k' := by
  have hsame : ∀ {k0 k1 : Lifecycle}, SameSessions k0 k1 → k0.sessionId = st.lifecycle.sessionId →
      k0.socket = st.lifecycle.socket → k0.nextSession = st.lifecycle.nextSession →
      SameSessions st.lifecycle k1 :=
    fun hk h1 h2 h3 => ⟨hk.sessionId.trans h1, hk.socket.trans h2, hk.nextSession.trans h3⟩
  cases h with
  | processed _ hk =>
    cases hk with
    | routed _ _ hk => exact (hsame (sameSessions_handled hk) rfl rfl rfl).keepsSessions
    | unrouted => exact SameSessions.keepsSessions ⟨rfl, rfl, rfl⟩
  | created _ hk =>
    obtain ⟨h1, h2, h3⟩ := sameSessions_registering hk
    exact keepsSessions_create ⟨h1, h2, h3⟩
  | started _ hk => exact (hsame (sameSessions_handled hk) rfl rfl rfl).keepsSessions
  | @loggedOut _ _ caller _ _ _ _ hk =>
    have hsessions := hk.untouched.toSameSessions
    rw [taken_eq] at hsessions
    rw [settled_eq]
    obtain ⟨h1, h2, h3⟩ := hsessions
    exact SameSessions.keepsSessions ⟨h1, h2, h3⟩
  | registered _ hk => exact (hsame (sameSessions_registered hk) rfl rfl rfl).keepsSessions
  | cleaned _ hk => exact (hsame hk.untouched.toSameSessions rfl rfl rfl).keepsSessions
  | listened _ hk => exact (hsame hk.untouched.toSameSessions rfl rfl rfl).keepsSessions
  | threw _ hk =>
    obtain ⟨h1, h2, h3⟩ := hk.untouched.toSameSessions
    exact SameSessions.keepsSessions ⟨h1, h2, h3⟩
  | handled hk => exact (sameSessions_handled hk).keepsSessions
  | created' => exact keepsSessions_create ⟨rfl, rfl, rfl⟩
  | stored => exact keepsSessions_create ⟨rfl, rfl, rfl⟩
  | registering hk => exact (sameSessions_registering hk).keepsSessions
  | _ => exact SameSessions.keepsSessions ⟨rfl, rfl, rfl⟩

/-- The invariant rule: a property of the life of sessions that holds initially, survives
the lowering of LOGGED_ON, and is kept by every change a guarded step can make. -/
theorem lifecycle_of_reached {guard : AcceptorState → Step → Prop} {P : Lifecycle → Prop}
    (hinit : ∀ config, P (AcceptorState.new config).lifecycle)
    (hlower : ∀ k k', P k → Lowered k k' → P k')
    (hchange : ∀ st e k', P st.lifecycle → guard st e → st.enabled e.event = true →
      Change st e k' → P k') {st : AcceptorState} (h : acceptor.Reached guard st) :
    P st.lifecycle := by
  have hinv : acceptor.Invariant guard fun st => P st.lifecycle := by
    refine ⟨?_, fun st e st' hst hguard hstep => ?_⟩
    · rintro _ ⟨config, rfl⟩
      exact hinit config
    · obtain ⟨k', hk', hst'⟩ := step_change hstep
      exact hlower k' _ (hchange st e k' hst hguard (step_enabled hstep) hk') hst'
  exact hinv.of_reached h

theorem wellFormed_new (config : AcceptorConfig) :
    WellFormed (AcceptorState.new config).lifecycle := by
  refine ⟨fun _ _ hs => ?_, fun _ _ hs => ?_, fun _ _ hs => ?_, fun _ _ hs => ?_,
    fun _ _ hs => ?_, fun _ hs => ?_⟩
  all_goals cases hs

/-- In every run, entries, tasks and listeners belong to their sessions. -/
theorem wellFormed_of_reached {guard : AcceptorState → Step → Prop} {st : AcceptorState}
    (h : acceptor.Reached guard st) : WellFormed st.lifecycle :=
  lifecycle_of_reached wellFormed_new (fun _ _ hk => hk.lowered)
    (fun _ _ _ hk _ henabled => hk.change henabled) h

/-- Messages are only passed to created sessions. -/
theorem lt_nextSession_of_routed {k : Lifecycle} {m : Message} {s : ℕ} (h : WellFormed k)
    (hs : k.routed m = some s) : s < k.nextSession := by
  unfold Lifecycle.routed at hs
  split at hs
  · exact (h.entry _ s hs).2
  · cases hs

end NestQuickfix.Acceptor
