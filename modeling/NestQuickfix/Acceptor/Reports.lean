import NestQuickfix.Acceptor.WellFormed

/-!
# Reports of disconnects

`handleDisconnect` runs the `disconnected` handlers and emits DISCONNECT whatever the
state of the session is. Every disconnect is reported once as long as a session is only
ended while its timers are running, which they do from its creation to its first
`handleDisconnect`.
-/

namespace NestQuickfix.Acceptor

open Lib Lifecycle

/-- No session has reported its disconnect twice. -/
def AcceptorState.ReportsOnce (st : AcceptorState) : Prop :=
  ∀ s, ∀ o ∈ disconnectReports s, st.trace.count o ≤ 1

/-- Every session that the event may end still has its timers. -/
def EndsRunning (st : AcceptorState) (e : Step) : Prop :=
  ∀ s ∈ st.ends e.event, (st.sessions s).heartbeatTimer = true

instance : ∀ (st : AcceptorState) (e : Step), Decidable (EndsRunning st e) := fun st e =>
  inferInstanceAs (Decidable (∀ s ∈ st.ends e.event, (st.sessions s).heartbeatTimer = true))

/-- No disconnect is reported twice, and none of a session with timers or of one not
created yet. -/
structure ReportsOnce (k : Lifecycle) : Prop where
  once : ∀ s, ∀ o ∈ disconnectReports s, k.trace.count o ≤ 1
  unreported : ∀ s, k.timer s = true ∨ k.nextSession ≤ s → ∀ o ∈ disconnectReports s, o ∉ k.trace

namespace ReportsOnce

variable {k k' : Lifecycle}

/-- It only depends on the timers, the number of sessions and the trace. -/
theorem congr (h : ReportsOnce k) (htimer : k'.timer = k.timer)
    (hnext : k'.nextSession = k.nextSession) (htrace : k'.trace = k.trace) : ReportsOnce k' := by
  refine ⟨?_, ?_⟩
  · rw [htrace]
    exact h.once
  · rw [htimer, hnext, htrace]
    exact h.unreported

theorem resume (h : ReportsOnce k) (p : Pending) : ReportsOnce (k.resume p) := h.congr rfl rfl rfl

theorem suspend (h : ReportsOnce k) (p : Pending) : ReportsOnce (k.suspend p) := h.congr rfl rfl rfl

theorem register (h : ReportsOnce k) (s : ℕ) : ReportsOnce (k.register s) := h.congr rfl rfl rfl

theorem logOn (h : ReportsOnce k) (s : ℕ) : ReportsOnce (k.logOn s) := h.congr rfl rfl rfl

theorem listen (h : ReportsOnce k) (c : ℕ) (l : CloseListener) : ReportsOnce (k.listen c l) :=
  h.congr rfl rfl rfl

theorem setClosing (h : ReportsOnce k) (closing : Option (ℕ × List CloseListener)) :
    ReportsOnce (k.setClosing closing) :=
  h.congr rfl rfl rfl

theorem taken (h : ReportsOnce k) (p : Option Pending) : ReportsOnce (k.taken p) := by
  cases p with
  | none => exact h
  | some p => exact h.resume p

theorem settled (h : ReportsOnce k) (caller : LogoutCaller) : ReportsOnce (k.settled caller) := by
  rw [settled_eq]
  exact h.congr rfl rfl rfl

theorem observe (h : ReportsOnce k) {o : Observation} (ho : ∀ s, o ∉ disconnectReports s) :
    ReportsOnce (k.observe o) := by
  have hne : ∀ s, ∀ o' ∈ disconnectReports s, o' ≠ o := by
    rintro s o' ho' rfl
    exact ho s ho'
  refine ⟨fun s o' ho' => ?_, fun s hs o' ho' => ?_⟩
  · rw [Lifecycle.observe, List.count_append, List.count_singleton, if_neg]
    · exact h.once s o' ho'
    · simpa using (hne s o' ho').symm
  · rw [Lifecycle.observe, List.mem_append, List.mem_singleton, not_or]
    exact ⟨h.unreported s hs o' ho', hne s o' ho'⟩

/-- A new session has not reported anything. -/
theorem create (h : ReportsOnce k) (id : JSString) (c : ℕ) : ReportsOnce (k.create id c) := by
  refine ⟨h.once, fun s hs => h.unreported s ?_⟩
  by_cases hsn : s = k.nextSession
  · exact Or.inr hsn.ge
  · rcases hs with hs | hs
    · left
      simpa [Lifecycle.create, hsn] using hs
    · exact Or.inr (Nat.le_of_succ_le hs)

/-- The end of a session with timers. -/
theorem tornDown (h : ReportsOnce k) {s : ℕ} {b : Bool} (hs : k.timer s = true)
    (hlt : s < k.nextSession) (hk : TornDown s k b k') : ReportsOnce k' := by
  have hnext := hk.untouched.nextSession
  obtain ⟨l, hl, htrace⟩ := hk.trace
  have hnodup : l.Nodup := hl.nodup (by simp [disconnectReports])
  have hother : ∀ x ≠ s, ∀ o ∈ disconnectReports x, o ∉ l := by
    intro x hx o ho hmem
    have hs := hl.subset hmem
    simp only [disconnectReports, List.mem_cons, List.not_mem_nil, or_false] at ho hs
    rcases ho with rfl | rfl <;> simp [hx] at hs
  refine ⟨fun x o ho => ?_, fun x hx o ho => ?_⟩
  · rw [htrace, List.count_append]
    by_cases hxs : x = s
    · subst x
      rw [List.count_eq_zero_of_not_mem (h.unreported s (Or.inl hs) o ho), Nat.zero_add]
      exact List.nodup_iff_count_le_one.mp hnodup o
    · rw [List.count_eq_zero_of_not_mem (hother x hxs o ho)]
      exact h.once x o ho
  · have hxs : x ≠ s := by
      rintro rfl
      rcases hx with hx | hx
      · rw [hk.timer_eq_false] at hx
        cases hx
      · omega
    rw [hk.timer_of_ne hxs, hnext] at hx
    rw [htrace, List.mem_append, not_or]
    exact ⟨h.unreported x hx o ho, hother x hxs o ho⟩

/-- The end of different sessions with timers. -/
theorem tearDowns (h : ReportsOnce k) {ss : List ℕ} (hnodup : ss.Nodup)
    (hss : ∀ s ∈ ss, k.timer s = true ∧ s < k.nextSession) (hk : TearDowns ss k k') :
    ReportsOnce k' := by
  induction hk with
  | stop => exact h
  | @next s ss b k k1 k2 hone _ ih =>
    obtain ⟨hs, hrest⟩ := List.nodup_cons.mp hnodup
    obtain ⟨hsk, hssk⟩ := List.forall_mem_cons.mp hss
    refine ih (h.tornDown hsk.1 hsk.2 hone) hrest fun x hx => ?_
    have hxs : x ≠ s := fun heq => hs (heq ▸ hx)
    rw [hone.timer_of_ne hxs, hone.untouched.nextSession]
    exact hssk x hx

theorem handled (h : ReportsOnce k) {s : ℕ} {m : Message}
    (hs : m.getField Fields.msgType = MsgType.logout → k.timer s = true ∧ s < k.nextSession)
    (hk : Handled s m k k') : ReportsOnce k' := by
  cases hk with
  | unanswered => exact h.logOn s
  | answered => exact (h.logOn s).observe (by simp [disconnectReports])
  | logout hlogout hk =>
    exact h.tearDowns (List.nodup_singleton s) (List.forall_mem_singleton.mpr (hs hlogout)) hk
  | other => exact h

theorem registered (h : ReportsOnce k) {s : ℕ} (hk : Registered s k k') : ReportsOnce k' := by
  cases hk with
  | stored => exact h.register s
  | refused => exact h
  | unhandled => exact h.observe (by simp [disconnectReports])

theorem registering (h : ReportsOnce k) {states : ℕ → SessionState} {s : ℕ}
    (hk : Registering states s k k') : ReportsOnce k' := by
  cases hk with
  | finished _ hk => exact h.registered hk
  | retry => exact h.suspend _
  | waiting => exact h.suspend _

end ReportsOnce

/-- A session stands under one id only. -/
theorem WellFormed.values_nodup {k : Lifecycle} (h : WellFormed k) : k.registry.values.Nodup := by
  refine List.Nodup.map_on (fun x hx y hy hxy => ?_) (List.Nodup.of_map _ k.registry.keys_nodup)
  have hx' := h.entry x.1 x.2 (OrderedMap.get?_eq_some_iff.mpr hx)
  have hy' := h.entry y.1 y.2 (OrderedMap.get?_eq_some_iff.mpr hy)
  exact Prod.ext (hx'.1.symm.trans (hxy ▸ hy'.1)) hxy

/-- Every change keeps it that only ends sessions with timers. -/
theorem ReportsOnce.change {st : AcceptorState} {e : Step} {k' : Lifecycle}
    (h : ReportsOnce st.lifecycle) (hwf : WellFormed st.lifecycle) (hguard : EndsRunning st e)
    (hk : Change st e k') : ReportsOnce k' := by
  have hends : ∀ s ∈ st.ends e.event,
      st.lifecycle.timer s = true ∧ s < st.lifecycle.nextSession :=
    fun s hs => ⟨hguard s hs, hwf.timer s (hguard s hs)⟩
  cases hk with
  | kept => exact h
  | processed hin hk =>
    cases hk with
    | routed hm hs hk =>
      refine (h.observe (by simp [disconnectReports])).handled (fun hlogout => ?_) hk
      exact hends _ (by simp [ends_processed hin hm hs hlogout])
    | unrouted => exact h
  | connected => exact h.congr rfl rfl rfl
  | created _ hk => exact ((h.create _ _).registering hk).suspend _
  | started hf hk =>
    refine ((h.resume _).listen _ _).handled (fun hlogout => ?_) hk
    exact hends _ (by simp [ends_started hf hlogout])
  | loggedOut hf hk =>
    refine ((h.taken _).tearDowns (List.nodup_singleton _) (fun x hx => ?_) hk).settled _
    rw [taken_eq]
    exact hends x (by simpa [ends_loggedOut hf] using hx)
  | registered _ hk => exact (h.resume _).registered hk
  | cleared => exact h.congr rfl rfl rfl
  | closed => exact h.congr rfl rfl rfl
  | ended => exact h.setClosing _
  | cleaned hclosing hk =>
    refine (h.setClosing _).tearDowns (hwf.values_nodup.filter _) (fun x hx => ?_) hk
    exact hends x (by rwa [ends_cleaned hclosing])
  | @listened c s ls _ _ hclosing hk =>
    obtain ⟨hs, hlt⟩ := hends s (by simp [ends_listened hclosing])
    exact (h.setClosing (some (c, ls))).tornDown hs hlt hk
  | @threw c s ls _ _ _ hclosing hk =>
    obtain ⟨hs, hlt⟩ := hends s (by simp [ends_listened hclosing])
    exact ((h.setClosing (some (c, ls))).tornDown hs hlt hk).setClosing _
  | handled hk =>
    refine h.handled (fun hlogout => ?_) hk
    exact hends _ (by simp [ends_handled hlogout])
  | created' => exact h.create _ _
  | stored => exact (h.create _ _).register _
  | registering hk => exact h.registering hk
  | removed => exact h.congr rfl rfl rfl

theorem reportsOnce_new (config : AcceptorConfig) :
    ReportsOnce (AcceptorState.new config).lifecycle := by
  refine ⟨fun _ _ _ => ?_, fun _ _ _ _ ho => ?_⟩
  · exact Nat.zero_le _
  · cases ho

/-- In every run that ends sessions only while they have timers, every session runs its
`disconnected` handlers and emits DISCONNECT at most once. -/
theorem reportsOnce_of_reached {st : AcceptorState} (h : acceptor.Reached EndsRunning st) :
    st.ReportsOnce := by
  have hboth := lifecycle_of_reached (P := fun k => WellFormed k ∧ ReportsOnce k)
    (fun config => ⟨wellFormed_new config, reportsOnce_new config⟩) ?_ ?_ h
  · intro s o ho
    have hvital : Observation.vital o = true := by
      simp only [disconnectReports, List.mem_cons, List.not_mem_nil, or_false] at ho
      rcases ho with rfl | rfl <;> rfl
    have hcount := hboth.2.once s o ho
    rwa [AcceptorState.lifecycle, List.count_filter hvital] at hcount
  · rintro k _ ⟨hwf, hk⟩ ⟨l, hl, rfl⟩
    exact ⟨hwf.lowered ⟨l, hl, rfl⟩, hk.congr rfl rfl rfl⟩
  · rintro st e k' ⟨hwf, hk⟩ hguard henabled hk'
    exact ⟨hwf.change henabled hk', hk.change hwf hguard hk'⟩

/-- A client logs on and is logged out, and then its connection closes. -/
def logoutSteps : List Step :=
  (Event.connect (js "client:1")).calmly :: logonSteps 0 (js "CLIENT") ++
    [(Event.logout 0 .undefined).calmly, (Event.resume 0).calmly, (Event.close 0).calmly,
      Event.nextListener.calmly]

/-- A session that is logged out before its connection closes. -/
theorem reportsOnce_logoutSteps : ∃ st ∈ acceptor.exec (broker 0) logoutSteps,
    .ran 0 .disconnected ∈ st.trace ∧ st.ReportsOnce := by
  have hguarded : acceptor.Guarded EndsRunning (broker 0) logoutSteps := by decide +kernel
  have hrun : ∃ st ∈ acceptor.exec (broker 0) logoutSteps, .ran 0 .disconnected ∈ st.trace := by
    decide +kernel
  obtain ⟨st, hst, hran⟩ := hrun
  have hreached : acceptor.Reached EndsRunning (broker 0) := .init ⟨_, rfl⟩
  exact ⟨st, hst, hran, reportsOnce_of_reached (hreached.exec hguarded hst)⟩

/-- The listener of the acceptor and that of the session both report the disconnect. -/
theorem not_reportsOnce_leavingSteps :
    ∃ st ∈ acceptor.exec (broker 0) leavingSteps, ¬ st.ReportsOnce := by
  have hrun : ∃ st ∈ acceptor.exec (broker 0) leavingSteps,
      1 < st.trace.count (.ran 0 .disconnected) := by decide +kernel
  obtain ⟨st, hst, htwice⟩ := hrun
  refine ⟨st, hst, fun h => ?_⟩
  have hone := h 0 (.ran 0 .disconnected) List.mem_cons_self
  omega

end NestQuickfix.Acceptor
