import NestQuickfix.Acceptor.Tasks

/-!
# The end of a session is final

`handleDisconnect` leaves a session DISCONNECTED. `handleLogon` assigns the state and calls
its handlers without reading the state again after its `await`, so it can bring a
disconnected session back. It stays DISCONNECTED as long as no disconnected session handles
a Logon or comes back from its Logon response.
-/

namespace NestQuickfix.Acceptor

open Lib Lib.Exec

/-- What is observed of a logon: the handlers that are called and the event. -/
def logonReports (s : ℕ) : List Observation :=
  [.ran s .connected, .ran s .logon, .emitted s .loggedOn]

/-- A session on which `handleDisconnect` has run is DISCONNECTED, and from then on none of
its `connected` or `logon` handlers is called and LOGGED_ON is not emitted. -/
def AcceptorState.StaysDisconnected (st : AcceptorState) : Prop :=
  ∀ s, (.ran s .disconnected ∈ st.trace → (st.sessions s).state = .disconnected) ∧
    st.trace.Pairwise fun o o' => o = .ran s .disconnected → o' ∉ logonReports s

/-- The sessions that an event may bring back: one that handles a Logon, or whose
`handleLogon` goes on after its response. -/
def AcceptorState.revives (st : AcceptorState) (e : Event) : List ℕ :=
  (st.logsOn e).toList ++ (st.responds e).toList

/-- The condition: a session that handles a Logon, or whose `handleLogon` goes on after its
response, still has its timers, so `handleDisconnect` has not run on it. -/
def RevivesNone (st : AcceptorState) (e : Step) : Prop :=
  ∀ s ∈ st.revives e.event, (st.sessions s).heartbeatTimer = true

instance : ∀ (st : AcceptorState) (e : Step), Decidable (RevivesNone st e) := fun st e =>
  List.decidableBAll (fun s => (st.sessions s).heartbeatTimer = true) (st.revives e.event)

/-! ## Ended sessions -/

/-- Sessions on which `handleDisconnect` has run have been created, have no timers and are
DISCONNECTED, and nothing of a logon has been observed since. -/
structure EndIsFinal (st : AcceptorState) : Prop where
  ended : ∀ s, .ran s .disconnected ∈ st.trace → s < st.nextSession ∧
    (st.sessions s).heartbeatTimer = false ∧ (st.sessions s).state = .disconnected
  silent : ∀ s, st.trace.Pairwise fun o o' => o = .ran s .disconnected → o' ∉ logonReports s

variable {st st' : AcceptorState} {e : Step}

/-- An event that may bring a session back ends none. -/
theorem ends_of_revives {event : Event} {s : ℕ} (h : s ∈ st.revives event) :
    st.ends event = [] := by
  have hcases : st.logsOn event = some s ∨ st.responds event = some s := by
    rcases List.mem_append.mp h with h | h
    · exact Or.inl (Option.mem_toList.mp h)
    · exact Or.inr (Option.mem_toList.mp h)
  have hne : (MsgType.logon : Value) ≠ MsgType.logout := by decide
  cases event with
  | handleMessage x m =>
    rcases hcases with h | h
    · unfold AcceptorState.logsOn at h
      dsimp only at h
      split at h
      · next hlogon => simp [AcceptorState.ends, AcceptorState.incoming, hlogon, hne]
      · cases h
    · cases h
  | resume i =>
    rcases hcases with h | h
    · unfold AcceptorState.logsOn at h
      dsimp only at h
      split at h
      · next hf =>
        split at h
        · next hlogon => simp [AcceptorState.ends, AcceptorState.incoming, hf, hlogon, hne]
        · cases h
      · cases h
    · unfold AcceptorState.responds at h
      dsimp only at h
      split at h
      · next hf => simp [AcceptorState.ends, AcceptorState.incoming, hf]
      · cases h
  | _ => rcases hcases with h | h <;> cases h

/-- An event only brings created sessions back. -/
theorem lt_nextSession_of_revives {guard : AcceptorState → Step → Prop}
    (h : acceptor.Reached guard st) (henabled : st.enabled e.event = true) {s : ℕ}
    (hs : s ∈ st.revives e.event) : s < st.nextSession := by
  rcases e with ⟨event, input⟩
  rcases List.mem_append.mp hs with hs | hs
  · have hlogsOn := Option.mem_toList.mp hs
    unfold AcceptorState.logsOn at hlogsOn
    dsimp only at hlogsOn
    split at hlogsOn
    · split at hlogsOn
      · cases hlogsOn
        exact of_decide_eq_true (Bool.and_eq_true_iff.mp henabled).2
      · cases hlogsOn
    · split at hlogsOn
      · next hf =>
        split at hlogsOn
        · cases hlogsOn
          exact ((wellFormed_of_reached h).starting _ s (mem_pending_of_task hf rfl)).2
        · cases hlogsOn
      · cases hlogsOn
    · cases hlogsOn
  · have hresponds := Option.mem_toList.mp hs
    unfold AcceptorState.responds at hresponds
    dsimp only at hresponds
    split at hresponds
    · split at hresponds
      · next hf =>
        cases hresponds
        exact session_lt_nextSession h _ (List.mem_of_getElem? hf) s rfl
      · cases hresponds
    · cases hresponds

namespace EndIsFinal

theorem congr (h : EndIsFinal st) (hsessions : st'.sessions = st.sessions)
    (hnext : st'.nextSession = st.nextSession) (htrace : st'.trace = st.trace) : EndIsFinal st' := by
  refine ⟨fun s hs => ?_, fun s => ?_⟩
  · rw [hsessions, hnext]
    exact h.ended s (htrace ▸ hs)
  · rw [htrace]
    exact h.silent s

theorem observe (h : EndIsFinal st) {o : Observation} (hran : ∀ s, o ≠ .ran s .disconnected)
    (ho : ∀ s, o ∈ logonReports s → (st.sessions s).heartbeatTimer = true) :
    EndIsFinal ((Act.observe o).apply st) := by
  refine ⟨fun s hs => ?_, fun s => ?_⟩
  · rcases List.mem_append.mp hs with hs | hs
    · exact h.ended s hs
    · exact absurd (List.mem_singleton.mp hs).symm (hran s)
  · refine List.pairwise_append.mpr ⟨h.silent s, List.pairwise_singleton .., ?_⟩
    rintro o' hmem _ hlast rfl hreport
    rw [List.mem_singleton.mp hlast] at hreport
    have htimer := ho s hreport
    rw [(h.ended s hmem).2.1] at htimer
    cases htimer

/-- A change of a session that keeps its timer. -/
theorem updateSession (h : EndIsFinal st) {s : ℕ} {f : Session → Session}
    (htimer : (f (st.sessions s)).heartbeatTimer = (st.sessions s).heartbeatTimer)
    (hstate : (st.sessions s).state = .disconnected →
      (st.sessions s).heartbeatTimer = false → (f (st.sessions s)).state = .disconnected) :
    EndIsFinal (st.withSessionAs s f) := by
  refine ⟨fun x hx => ?_, h.silent⟩
  obtain ⟨hlt, hdown, hfinal⟩ := h.ended x hx
  refine ⟨hlt, ?_⟩
  by_cases hxs : x = s
  · subst x
    simp [AcceptorState.withSessionAs, htimer, hdown, hstate hfinal hdown]
  · simp [AcceptorState.withSessionAs, hxs, hdown, hfinal]

theorem disconnect (h : EndIsFinal st) {s : ℕ} (hs : s < st.nextSession) :
    EndIsFinal ((Act.disconnect s).apply st) := by
  refine ⟨fun x hx => ?_, fun x => ?_⟩
  · by_cases hxs : x = s
    · subst x
      simpa [Act.apply, AcceptorState.withSessionAs, Session.clearTimers] using hs
    · have hold : .ran x .disconnected ∈ st.trace := by
        rcases List.mem_append.mp hx with hx | hx
        · exact hx
        · cases List.mem_singleton.mp hx
          exact absurd rfl hxs
      simpa [Act.apply, AcceptorState.withSessionAs, hxs] using h.ended x hold
  · refine List.pairwise_append.mpr ⟨h.silent x, List.pairwise_singleton .., ?_⟩
    rintro o' _ _ hlast rfl hreport
    rw [List.mem_singleton.mp hlast] at hreport
    simp [logonReports] at hreport

theorem create (h : EndIsFinal st) (config : SessionConfig) (c : ℕ) :
    EndIsFinal ((Act.create config c).apply st) := by
  refine ⟨fun x hx => ?_, h.silent⟩
  obtain ⟨hlt, hdown, hfinal⟩ := h.ended x hx
  have hne : x ≠ st.nextSession := by omega
  refine ⟨?_, ?_⟩
  · change x < st.nextSession + 1
    omega
  · simp [Act.apply, hne, hdown, hfinal]

/-- Every act of a step that meets the condition keeps it. -/
theorem act (h : EndIsFinal st') {a : Act} (ha : a.CausedBy (st.meets e) e.event)
    (hends : ∀ s ∈ st.ends e.event, s < st'.nextSession)
    (htimer : ∀ s ∈ st.revives e.event, (st'.sessions s).heartbeatTimer = true) :
    EndIsFinal (a.apply st') := by
  cases a with
  | observe o =>
    refine h.observe (fun s hran => ?_) fun s hs => htimer s ?_
    · subst hran
      exact ha
    · have hresponds : st.responds e.event = some s := by
        simp only [logonReports, List.mem_cons, List.not_mem_nil, or_false] at hs
        rcases hs with rfl | rfl | rfl
        · exact ha
        · exact ha
        · exact ha rfl
      exact List.mem_append_right _ (Option.mem_toList.mpr hresponds)
  | setState s state =>
    simp only [Act.apply]
    refine h.updateSession rfl fun _ hdown => ?_
    have hrevived : s ∉ st.revives e.event := by
      intro hs
      rw [htimer s hs] at hdown
      cases hdown
    rcases ha with ⟨_, hlogsOn⟩ | ⟨_, hresponds⟩ | ⟨hstate, _⟩
    · exact absurd (List.mem_append_left _ (Option.mem_toList.mpr hlogsOn)) hrevived
    · exact absurd (List.mem_append_right _ (Option.mem_toList.mpr hresponds)) hrevived
    · exact hstate
  | beginLogout s =>
    simp only [Act.apply]
    refine h.updateSession ?_ fun hstate _ => ?_
    · split <;> rfl
    · rw [if_pos hstate, hstate]
  | count s =>
    simp only [Act.apply]
    exact h.updateSession rfl fun hstate _ => hstate
  | addHandlers s metadata =>
    simp only [Act.apply]
    refine h.updateSession ?_ fun hstate _ => ?_
    · unfold Session.withHandlers
      split <;> rfl
    · unfold Session.withHandlers
      split <;> exact hstate
  | disconnect s => exact h.disconnect (hends s ha)
  | create config c => exact h.create config c
  | _ =>
    exact h.congr (sessions_apply rfl st') (nextSession_apply (by simp) st') (trace_apply rfl st')

/-- Every step that meets the condition keeps it. -/
theorem step {guard : AcceptorState → Step → Prop} (h : EndIsFinal st)
    (hreached : acceptor.Reached guard st) (hguard : RevivesNone st e)
    (hstep : st.step e = some st') : EndIsFinal st' := by
  have hends : ∀ s ∈ st.ends e.event, s < st.nextSession :=
    fun s hs => lt_nextSession_of_ends hreached (step_enabled hstep) hs
  have hrevives : ∀ s ∈ st.revives e.event, s < st.nextSession :=
    fun s hs => lt_nextSession_of_revives hreached (step_enabled hstep) hs
  have hst : EndIsFinal (st.meets e) := h.congr rfl rfl rfl
  refine (step_keeps hstep (P := fun st1 => EndIsFinal st1 ∧ st.nextSession ≤ st1.nextSession ∧
    ∀ s ∈ st.revives e.event, (st1.sessions s).heartbeatTimer = true)
    ⟨hst, Nat.le_refl _, hguard⟩ ?_).1
  rintro st1 a _ ha ⟨hfinal, hnext, htimer⟩
  refine ⟨hfinal.act ha (fun s hs => Nat.lt_of_lt_of_le (hends s hs) hnext) htimer,
    hnext.trans (nextSession_le_apply a st1), fun s hs => ?_⟩
  rw [timer_apply ?_ (Nat.lt_of_lt_of_le (hrevives s hs) hnext)]
  · exact htimer s hs
  · rintro rfl
    have hx : s ∈ st.ends e.event := ha
    rw [ends_of_revives hs] at hx
    cases hx

end EndIsFinal

/-- In every run that brings no ended session back, a session on which `handleDisconnect` has
run stays DISCONNECTED, and nothing of a logon is observed of it any more. -/
theorem staysDisconnected_of_reached (h : acceptor.Reached RevivesNone st) :
    st.StaysDisconnected := by
  have hfinal : EndIsFinal st := by
    induction h with
    | init hinit =>
      obtain ⟨config, rfl⟩ := hinit
      refine ⟨fun _ hs => ?_, fun _ => List.Pairwise.nil⟩
      cases hs
    | step hreached hguard hstep ih => exact ih.step hreached hguard hstep
  exact fun s => ⟨fun hs => (hfinal.ended s hs).2.2, hfinal.silent s⟩

/-- A client that leaves after its Logon was answered. -/
theorem staysDisconnected_leavingSteps : ∃ st ∈ acceptor.exec (broker 0) leavingSteps,
    .ran 0 .disconnected ∈ st.trace ∧ st.StaysDisconnected := by
  have hguarded : acceptor.Guarded RevivesNone (broker 0) leavingSteps := by decide +kernel
  have hrun : ∃ st ∈ acceptor.exec (broker 0) leavingSteps, .ran 0 .disconnected ∈ st.trace := by
    decide +kernel
  obtain ⟨st, hst, hran⟩ := hrun
  have hreached : acceptor.Reached RevivesNone (broker 0) := .init ⟨_, rfl⟩
  exact ⟨st, hst, hran, staysDisconnected_of_reached (hreached.exec hguarded hst)⟩

/-- A client sends a Logout before the response to its Logon has been written. -/
def hastySteps : List Step :=
  [Event.connect (js "client:1"), .data 0 (logonBytes (js "CLIENT")), .resume 0, .resume 0,
    .resume 0, .data 0 (clientBytes (js "5") (js "CLIENT") []), .resume 1, .resume 1,
    .resume 0].map Event.calmly

/-- The session is disconnected and logs on afterwards. -/
theorem not_staysDisconnected_hasty :
    ∃ st ∈ acceptor.exec (broker 0) hastySteps, ¬ st.StaysDisconnected := by
  have hrun : ∃ st ∈ acceptor.exec (broker 0) hastySteps, ¬ st.trace.Pairwise fun o o' =>
      o = .ran 0 .disconnected → o' ∉ logonReports 0 := by decide +kernel
  obtain ⟨st, hst, hlate⟩ := hrun
  exact ⟨st, hst, fun h => hlate (h 0).2⟩

end NestQuickfix.Acceptor
