import NestQuickfix.Acceptor.Causes
import NestQuickfix.Acceptor.WellFormed

/-!
# Suspended tasks in runs

A step takes at most the task it goes on with, and adds tasks that its event causes. All
sessions that tasks and events concern have been created.
-/

namespace NestQuickfix.Acceptor

open Lib Lib.Exec

variable {guard : AcceptorState → Step → Prop} {st st' : AcceptorState} {e : Step}

/-- The state in which a step begins: its event meets the input. -/
def AcceptorState.meets (st : AcceptorState) (e : Step) : AcceptorState :=
  { st with input := e.input }

/-- The rule for steps: what every act keeps, with its cause, is kept by the step. -/
theorem step_keeps {P : AcceptorState → Prop} (hstep : st.step e = some st')
    (hst : P (st.meets e))
    (hP : ∀ (st1 : AcceptorState) (a : Act), Path Act.apply (st.stepActs e) (st.meets e) st1 →
      a.CausedBy (st.meets e) e.event → P st1 → P (a.apply st1)) : P st' :=
  (step_path hstep).keeps (fun st1 a hpath ha => hP st1 a hpath (causedBy_of_mem ha)) hst

theorem after_of_step (hstep : st.step e = some st') :
    (perform e.event).after (st.meets e) = st' := by
  unfold AcceptorState.step at hstep
  split at hstep
  · exact Option.some.inj hstep
  · cases hstep

/-- Going on with a task, after it has been taken. -/
theorem after_resume {i : ℕ} {frame : Frame} (hf : st.tasks[i]? = some frame) :
    (perform (.resume i)).after st = (resume frame).after ((Act.take i).apply st) := by
  unfold perform resumeTask
  rw [after_bind_of_ok (result_get st), hf]
  dsimp only
  rw [after_bind_of_ok (result_modify _ st)]
  rfl

/-- A step that goes on with a task takes it first. -/
theorem after_resume_step (hstep : st.step e = some st') {i : ℕ} {frame : Frame}
    (hevent : e.event = .resume i) (hf : st.tasks[i]? = some frame) :
    (resume frame).after ((Act.take i).apply (st.meets e)) = st' := by
  have hf' : (st.meets e).tasks[i]? = some frame := hf
  rw [← after_of_step hstep, hevent, after_resume hf']

/-- A step goes on only with a task that is there. -/
theorem exists_task_of_step (hstep : st.step e = some st') {i : ℕ} (hevent : e.event = .resume i) :
    ∃ frame, st.tasks[i]? = some frame := by
  have henabled := step_enabled hstep
  rw [hevent] at henabled
  cases hf : st.tasks[i]? with
  | none => simp [AcceptorState.enabled, AcceptorState.canResume, hf] at henabled
  | some frame => exact ⟨frame, rfl⟩

/-! ## Taking a task -/

/-- The state in which a step has taken the task it goes on with. -/
def AcceptorState.taken (st : AcceptorState) (e : Step) : AcceptorState :=
  match e.event with
  | .resume i => (Act.take i).apply (st.meets e)
  | _ => st.meets e

/-- Going on with a task takes no other one: the acts do not depend on the place of the task. -/
theorem ne_take_of_resume {frame : Frame} {a : Act} (ha : a ∈ resumeActs st frame) (i : ℕ) :
    a ≠ .take i := by
  rintro rfl
  have hplace : ∀ tasks : List Frame,
      .take i ∈ resumeActs { st with tasks := tasks } frame := by
    intro tasks
    cases frame <;> exact ha
  have hfirst := causedBy_resume (i := 0) rfl (hplace [frame])
  have hsecond := causedBy_resume (i := 1) rfl (hplace [frame, frame])
  cases hfirst
  cases hsecond

/-- The rule for steps, after the task has been taken. -/
theorem step_keeps_taken {P : AcceptorState → Prop} (hstep : st.step e = some st')
    (hst : P (st.taken e))
    (hP : ∀ (st1 : AcceptorState) (a : Act), a.CausedBy (st.meets e) e.event →
      (∀ i, a ≠ .take i) → P st1 → P (a.apply st1)) : P st' := by
  have hacts : ∀ a ∈ st.stepActs e, a.CausedBy (st.meets e) e.event := fun _ => causedBy_of_mem
  rcases e with ⟨event, input⟩
  cases event with
  | resume i =>
    obtain ⟨frame, hf⟩ := exists_task_of_step hstep rfl
    rw [← after_resume_step hstep rfl hf]
    refine (performs_resume fun _ => id).keeps (fun st1 a _ ha => ?_) hst
    have ha' : a ∈ resumeActs (st.meets ⟨.resume i, input⟩) frame := by cases frame <;> exact ha
    exact hP st1 a (hacts a ⟨frame, hf, Or.inr ha'⟩) (ne_take_of_resume ha')
  | _ =>
    refine step_keeps hstep hst fun st1 a _ ha => hP st1 a ha ?_
    rintro i rfl
    cases ha

/-- A task stays until an event goes on with it. -/
theorem mem_tasks_step (hstep : st.step e = some st') {frame : Frame} (h : frame ∈ st.tasks) :
    frame ∈ st'.tasks ∨ st.GoesOn e.event frame := by
  by_cases hgoes : st.GoesOn e.event frame
  · exact Or.inr hgoes
  · left
    refine step_keeps_taken hstep (P := fun st1 => frame ∈ st1.tasks) ?_ ?_
    · rcases e with ⟨event, input⟩
      cases event with
      | resume i =>
        obtain ⟨j, hj, hframe⟩ := List.getElem_of_mem h
        refine List.mem_eraseIdx_iff_getElem?.mpr ⟨j, ?_, List.getElem?_eq_some_iff.mpr ⟨hj, hframe⟩⟩
        rintro rfl
        exact hgoes ⟨j, rfl, List.getElem?_eq_some_iff.mpr ⟨hj, hframe⟩⟩
      | _ => exact h
    · intro st1 a _ htake hframe
      rw [tasks_apply htake]
      exact List.mem_append_left _ hframe

/-- A task after a step was there before or is caused by the event. -/
theorem step_tasks (hstep : st.step e = some st') :
    ∀ frame ∈ st'.tasks, frame ∈ st.tasks ∨ frame.CausedBy (st.meets e) e.event ∨
      ∃ k stopping, frame = .allClosed k stopping := by
  refine step_keeps hstep (P := fun st' => ∀ frame ∈ st'.tasks, frame ∈ st.tasks ∨
    frame.CausedBy (st.meets e) e.event ∨ ∃ k stopping, frame = .allClosed k stopping)
    (fun frame h => Or.inl h) fun st1 a _ ha ih frame hframe => ?_
  rcases mem_tasks_apply hframe with hframe | rfl | hframe
  · exact ih frame hframe
  · exact Or.inr (Or.inl ha)
  · exact Or.inr (Or.inr hframe)

/-- Sessions stay. -/
theorem nextSession_le_step (hstep : st.step e = some st') : st.nextSession ≤ st'.nextSession := by
  obtain ⟨k', hk', l, _, hlife⟩ := step_change hstep
  have hnext : st'.nextSession = k'.nextSession := congrArg Lifecycle.nextSession hlife
  rw [hnext]
  exact (keepsSessions_change hk').nextSession

/-- Sessions keep what they are born with. -/
theorem binding_step (hstep : st.step e = some st') {s : ℕ} (hs : s < st.nextSession) :
    (st'.sessions s).config = (st.sessions s).config ∧
      (st'.sessions s).socket = (st.sessions s).socket := by
  refine (step_keeps hstep (P := fun st1 => st.nextSession ≤ st1.nextSession ∧
    (st1.sessions s).config = (st.sessions s).config ∧
      (st1.sessions s).socket = (st.sessions s).socket) ⟨Nat.le_refl _, rfl, rfl⟩ ?_).2
  rintro st1 a _ _ ⟨hle, hconfig, hsocket⟩
  obtain ⟨hconfig', hsocket'⟩ := session_apply a (Nat.lt_of_lt_of_le hs hle)
  exact ⟨hle.trans (nextSession_le_apply a st1), hconfig'.trans hconfig, hsocket'.trans hsocket⟩

theorem config_step (hstep : st.step e = some st') : st'.config = st.config :=
  step_keeps hstep (P := fun st1 => st1.config = st.config) rfl fun st1 a _ _ hconfig =>
    (config_apply a st1).trans hconfig

/-- Sockets stay. -/
theorem nextSocket_le_step (hstep : st.step e = some st') : st.nextSocket ≤ st'.nextSocket := by
  refine step_keeps hstep (P := fun st' => st.nextSocket ≤ st'.nextSocket) (Nat.le_refl _)
    fun st1 a _ _ hle => ?_
  cases h : a.changesSockets with
  | false => rwa [(sameSockets_apply h st1).nextSocket]
  | true =>
    cases a with
    | connect remoteAddress => exact Nat.le_succ_of_le hle
    | _ => first | exact hle | cases h

/-! ## Loops over messages -/

/-- The tasks of a loop come from the loop. -/
theorem processes_of_causedBy {event : Event} {frame : Frame} {c : ℕ}
    (h : frame.CausedBy st event) (hc : frame.loop = some c) : st.Processes event c := by
  cases frame with
  | nextMessage c' rest => cases hc; exact h
  | validateCredentials c' m rest => cases hc; exact processes_of_incoming h.1
  | getAllowedSenderCompIds c' m rest =>
    cases hc
    obtain ⟨⟨i, rfl, hf⟩, _⟩ := h
    exact processes_of_task hf rfl
  | validated c' m rest verdict => cases hc; exact h.1
  | closeDelay c' rest => cases hc; exact h
  | created c' s m rest =>
    cases hc
    obtain ⟨_, i, rfl, hf⟩ := h
    exact processes_of_task hf rfl
  | handlersSet c' s m rest =>
    cases hc
    obtain ⟨i, rfl, hf⟩ := h
    exact processes_of_task hf rfl
  | logonResponse origin s m error =>
    exact AcceptorState.Serves.processes (Or.inl h.1) hc
  | testRequestReply origin s m error => exact AcceptorState.Serves.processes (Or.inl h) hc
  | messageHandlers origin s m => exact AcceptorState.Serves.processes h hc
  | handlerPending origin s m next => exact AcceptorState.Serves.processes h hc
  | _ => cases hc

theorem lt_nextSocket_of_incoming (henabled : st.enabled e.event = true)
    (htasks : ∀ frame ∈ st.tasks, ∀ c, frame.loop = some c → c < st.nextSocket) {c : ℕ}
    {ms : List Message} (hin : (st.meets e).incoming e.event = some (c, ms)) :
    c < st.nextSocket := by
  rcases e with ⟨event, input⟩
  unfold AcceptorState.incoming at hin
  dsimp only at hin
  split at hin
  · split at hin
    · cases hin
      simp only [AcceptorState.enabled, Bool.and_eq_true, decide_eq_true_eq] at henabled
      exact henabled.2.1.1.2
    · cases hin
  · split at hin
    · next hf =>
      cases hin
      exact htasks _ (List.mem_of_getElem? hf) c rfl
    · cases hin
  · cases hin

/-- In every run the loops are over messages of accepted sockets. -/
theorem loop_lt_nextSocket (h : acceptor.Reached guard st) :
    ∀ frame ∈ st.tasks, ∀ c, frame.loop = some c → c < st.nextSocket := by
  induction h with
  | init hinit =>
    obtain ⟨config, rfl⟩ := hinit
    exact fun _ hframe => by cases hframe
  | @step st st' e _ _ hstep ih =>
    intro frame hframe c hc
    refine Nat.lt_of_lt_of_le ?_ (nextSocket_le_step hstep)
    have hincoming : ∀ ms, (st.meets e).incoming e.event = some (c, ms) → c < st.nextSocket :=
      fun ms hin => lt_nextSocket_of_incoming (step_enabled hstep) ih hin
    rcases step_tasks hstep frame hframe with hold | hcause | ⟨k, stopping, rfl⟩
    · exact ih frame hold c hc
    · rcases processes_of_causedBy hcause hc with ⟨ms, hin⟩ | ⟨frame', ⟨i, _, hf⟩, hloop⟩
      · exact hincoming ms hin
      · exact ih frame' (List.mem_of_getElem? hf) c hloop
    · cases hc

/-! ## New sessions -/

/-- Whether an event creates a session. -/
def AcceptorState.makes (st : AcceptorState) : Event → Bool
  | .resume i =>
    match st.tasks[i]? with
    | some (.validated _ _ _ .valid) => true
    | _ => false
  | .newSession .. => true
  | .createSession .. => !st.limitReached
  | _ => false

/-- The session for a valid Logon is created before the rest of its step. -/
theorem path_validated (hstep : st.step e = some st') {i c : ℕ} {m : Message}
    {rest : List Message} (hevent : e.event = .resume i)
    (hf : st.tasks[i]? = some (.validated c m rest .valid)) :
    Path Act.apply ({.suspend (.created c st.nextSession m rest)} ∪ registerActs
        ((Act.create (buildSessionConfig st.config m) c).apply ((Act.take i).apply (st.meets e)))
        st.nextSession true)
      ((Act.create (buildSessionConfig st.config m) c).apply ((Act.take i).apply (st.meets e)))
      st' := by
  rw [← after_resume_step hstep hevent hf]
  exact path_afterValidated fun _ => id

theorem ne_create_of_register {s : ℕ} {dropped : Bool} {a : Act} (ha : a ∈ registerActs st s dropped)
    (config : SessionConfig) (c : ℕ) : a ≠ .create config c := by
  rintro rfl
  rcases ha with ⟨_, ⟨_, ha⟩ | ⟨_, ha⟩⟩ |
    ⟨old, _, ⟨_, ha⟩ | ⟨_, ha | (ha | ⟨_, _, ha⟩) | ⟨_, ha⟩⟩⟩ <;> cases ha

/-- The session created for a Logon is configured by it and bound to its connection. -/
theorem created_step (hstep : st.step e = some st') {i c : ℕ} {m : Message} {rest : List Message}
    (hevent : e.event = .resume i) (hf : st.tasks[i]? = some (.validated c m rest .valid)) :
    st'.nextSession = st.nextSession + 1 ∧
      (st'.sessions st.nextSession).config = buildSessionConfig st.config m ∧
      (st'.sessions st.nextSession).socket = c := by
  refine (path_validated hstep hevent hf).keeps (P := fun st1 => st1.nextSession = st.nextSession + 1 ∧
    (st1.sessions st.nextSession).config = buildSessionConfig st.config m ∧
    (st1.sessions st.nextSession).socket = c) ?_ ?_
  · rintro st1 a _ ha ⟨hnext, hconfig, hsocket⟩
    have hcreate : ∀ config c, a ≠ .create config c := by
      rcases ha with rfl | ha
      · exact fun _ _ h => by cases h
      · exact ne_create_of_register ha
    have hlt : st.nextSession < st1.nextSession := by omega
    obtain ⟨hconfig', hsocket'⟩ := session_apply a hlt
    exact ⟨(nextSession_apply hcreate st1).trans hnext, hconfig'.trans hconfig,
      hsocket'.trans hsocket⟩
  · simp [Act.apply, AcceptorState.meets]

theorem after_createSession (config : SessionConfig) (c : ℕ) : (createSession config c).after st =
    if st.limitReached then st
    else (Act.register st.nextSession).apply ((Act.create config c).apply st) := by
  unfold createSession
  rw [after_bind_of_ok (result_get st)]
  split
  · rfl
  · rw [after_bind_of_ok (result_newSession config c)]
    rfl

/-- A step creates at most one session. -/
theorem nextSession_step (hstep : st.step e = some st') :
    st'.nextSession = if st.makes e.event then st.nextSession + 1 else st.nextSession := by
  have hafter := after_of_step hstep
  by_cases hnew : (∃ config c, e.event = .newSession config c) ∨
      ∃ config c, e.event = .createSession config c
  · rcases hnew with ⟨config, c, hevent⟩ | ⟨config, c, hevent⟩
    · rw [hevent] at hafter
      rw [← hafter, hevent]
      rfl
    · rw [hevent, perform, after_createSession] at hafter
      have hlimit : (st.meets e).limitReached = st.limitReached := rfl
      rw [← hafter, hevent, hlimit]
      cases hreached : st.limitReached with
      | true => simp [AcceptorState.makes, hreached, AcceptorState.meets]
      | false => simp [AcceptorState.makes, hreached, Act.apply, AcceptorState.meets]
  · by_cases hvalid : ∃ i c m rest, e.event = .resume i ∧
        st.tasks[i]? = some (.validated c m rest .valid)
    · obtain ⟨i, c, m, rest, hevent, hf⟩ := hvalid
      rw [(created_step hstep hevent hf).1, hevent]
      simp [AcceptorState.makes, hf]
    · have hmakes : st.makes e.event = false := by
        by_contra hmakes
        rw [Bool.not_eq_false] at hmakes
        unfold AcceptorState.makes at hmakes
        split at hmakes
        · split at hmakes
          · exact hvalid ⟨_, _, _, _, ‹_›, ‹_›⟩
          · cases hmakes
        · exact hnew (Or.inl ⟨_, _, ‹_›⟩)
        · exact hnew (Or.inr ⟨_, _, ‹_›⟩)
        · cases hmakes
      rw [hmakes]
      refine step_keeps hstep (P := fun st1 => st1.nextSession = st.nextSession) rfl ?_
      intro st1 a _ ha hnext
      refine (nextSession_apply ?_ st1).trans hnext
      rintro config c rfl
      rcases ha with ⟨m, rest, ⟨i, hevent, hf⟩, _⟩ | hevent | hevent
      · exact hvalid ⟨i, _, m, rest, hevent, hf⟩
      · exact hnew (Or.inl ⟨config, c, hevent⟩)
      · exact hnew (Or.inr ⟨config, c, hevent⟩)

/-! ## Timers -/

/-- Running sessions keep their timers until `handleDisconnect` has run on them. -/
def TimersRun (st : AcceptorState) : Prop :=
  ∀ s < st.nextSession, (st.sessions s).heartbeatTimer = false → .ran s .disconnected ∈ st.trace

theorem TimersRun.act (h : TimersRun st) (a : Act) : TimersRun (a.apply st) := by
  intro s hs htimer
  by_cases hnew : s < st.nextSession
  · by_cases ha : a = .disconnect s
    · subst ha
      exact List.mem_append_right _ (List.mem_singleton_self _)
    · rw [timer_apply ha hnew] at htimer
      exact mem_trace_apply a (h s hnew htimer)
  · by_cases ha : ∀ config c, a ≠ .create config c
    · rw [nextSession_apply ha] at hs
      exact absurd hs hnew
    · push Not at ha
      obtain ⟨config, c, rfl⟩ := ha
      have hlt : s < st.nextSession + 1 := hs
      obtain rfl : s = st.nextSession := by omega
      rw [sessions_apply_eq, Act.onSession, if_pos rfl] at htimer
      cases htimer

/-- In every run `handleDisconnect` has run on the sessions without timers. -/
theorem timersRun_of_reached (h : acceptor.Reached guard st) : TimersRun st := by
  induction h with
  | init hinit =>
    obtain ⟨config, rfl⟩ := hinit
    exact fun s hs => absurd hs (Nat.not_lt_zero s)
  | step _ _ hstep ih => exact step_keeps hstep ih fun _ a _ _ htimers => htimers.act a

theorem timer_apply_of_off (a : Act) {s : ℕ} (hs : s < st.nextSession)
    (h : (st.sessions s).heartbeatTimer = false) :
    ((a.apply st).sessions s).heartbeatTimer = false := by
  by_cases ha : a = .disconnect s
  · subst ha
    exact timer_disconnect
  · rwa [timer_apply ha hs]

/-- Timers do not start again. -/
theorem timer_step (hstep : st.step e = some st') {s : ℕ} (hs : s < st.nextSession)
    (h : (st.sessions s).heartbeatTimer = false) : (st'.sessions s).heartbeatTimer = false := by
  refine (step_keeps hstep (P := fun st1 => st.nextSession ≤ st1.nextSession ∧
    (st1.sessions s).heartbeatTimer = false) ⟨Nat.le_refl _, h⟩ ?_).2
  rintro st1 a _ _ ⟨hnext, htimer⟩
  exact ⟨hnext.trans (nextSession_le_apply a st1),
    timer_apply_of_off a (Nat.lt_of_lt_of_le hs hnext) htimer⟩

/-! ## Created sessions -/

/-- The session that a task goes on with. -/
def Frame.session : Frame → Option ℕ
  | .logonResponse _ s _ _ | .testRequestReply _ s _ _ | .messageHandlers _ s _
  | .handlerPending _ s _ _ | .logoutSent s _ _ => some s
  | _ => none

theorem lt_nextSession_of_mem_values (h : WellFormed st.lifecycle) {s : ℕ}
    (hs : s ∈ st.registry.values) : s < st.nextSession := by
  obtain ⟨id, hid⟩ := OrderedMap.mem_values_iff.mp hs
  exact (h.entry id s hid).2

theorem lt_nextSession_of_handles (h : WellFormed st.lifecycle)
    (henabled : st.enabled e.event = true) {origin : Origin} {s : ℕ} {m : Message}
    (hs : (st.meets e).Handles e.event origin s m) : s < st.nextSession := by
  rcases e with ⟨event, input⟩
  cases hs with
  | routed _ hs => exact lt_nextSession_of_routed h hs
  | @started i c s m rest hf =>
    have hpending : .starting c s ∈ st.lifecycle.pending := mem_pending_of_task hf rfl
    exact (h.starting c s hpending).2
  | called =>
    have hlt := (Bool.and_eq_true_iff.mp henabled).2
    exact of_decide_eq_true hlt

theorem lt_nextSession_of_replaces (h : WellFormed st.lifecycle) {s old : ℕ} {dropped : Bool}
    {event : Event} (hs : st.Replaces event s old dropped) : old < st.nextSession := by
  cases hs with
  | called hold => exact (h.entry _ _ hold).2
  | created _ hold => exact (h.entry _ _ hold).2

theorem lt_nextSession_of_logsOut (h : WellFormed st.lifecycle)
    (henabled : st.enabled e.event = true) {s : ℕ} {caller : LogoutCaller}
    (hs : (st.meets e).LogsOut e.event s caller) : s < st.nextSession := by
  rcases e with ⟨event, input⟩
  cases hs with
  | called => exact of_decide_eq_true (Bool.and_eq_true_iff.mp henabled).2
  | replaced hreplaces =>
    have hmeets : WellFormed (st.meets ⟨event, input⟩).lifecycle := h
    exact lt_nextSession_of_replaces hmeets hreplaces
  | stopped hs => exact lt_nextSession_of_mem_values h hs
  | closed hs => exact lt_nextSession_of_mem_values h hs

/-- In every run the tasks go on with created sessions. -/
theorem session_lt_nextSession (h : acceptor.Reached guard st) :
    ∀ frame ∈ st.tasks, ∀ s, frame.session = some s → s < st.nextSession := by
  induction h with
  | init hinit =>
    obtain ⟨config, rfl⟩ := hinit
    exact fun _ hframe => by cases hframe
  | @step st st' e hreached _ hstep ih =>
    intro frame hframe s hs
    have hwf := wellFormed_of_reached hreached
    have henabled := step_enabled hstep
    refine Nat.lt_of_lt_of_le ?_ (nextSession_le_step hstep)
    have hserves : ∀ origin m, (st.meets e).Serves e.event origin s m → s < st.nextSession := by
      rintro origin m (hhandles | ⟨frame', ⟨i, _, hf⟩, hs'⟩)
      · exact lt_nextSession_of_handles hwf henabled hhandles
      · refine ih frame' (List.mem_of_getElem? hf) s ?_
        cases frame' <;> cases hs' <;> rfl
    rcases step_tasks hstep frame hframe with hold | hcause | ⟨k, stopping, rfl⟩
    · exact ih frame hold s hs
    · cases frame <;> cases hs
      · exact lt_nextSession_of_handles hwf henabled hcause.1
      · exact lt_nextSession_of_handles hwf henabled hcause
      · exact hserves _ _ hcause
      · exact hserves _ _ hcause
      · exact lt_nextSession_of_logsOut hwf henabled hcause.1
    · cases hs

/-- In every run an event only ends created sessions. -/
theorem lt_nextSession_of_ends (h : acceptor.Reached guard st) (henabled : st.enabled e.event = true)
    {s : ℕ} (hs : s ∈ st.ends e.event) : s < st.nextSession := by
  have hwf := wellFormed_of_reached h
  have hrouted : ∀ m, s ∈ st.endedBy m → s < st.nextSession := by
    intro m hm
    unfold AcceptorState.endedBy at hm
    split at hm
    · exact lt_nextSession_of_routed hwf (Option.mem_toList.mp hm)
    · cases hm
  rcases e with ⟨event, input⟩
  unfold AcceptorState.ends at hs
  dsimp only at hs
  split at hs
  · obtain ⟨m, _, hm⟩ := List.mem_flatMap.mp hs
    exact hrouted m hm
  · split at hs
    · split at hs
      · obtain rfl := List.mem_singleton.mp hs
        exact of_decide_eq_true (Bool.and_eq_true_iff.mp henabled).2
      · cases hs
    · split at hs
      · next hf =>
        obtain rfl := List.mem_singleton.mp hs
        exact session_lt_nextSession h _ (List.mem_of_getElem? hf) s rfl
      · next c x m rest hf =>
        split at hs
        · obtain rfl := List.mem_singleton.mp hs
          exact (hwf.starting c s (mem_pending_of_task hf rfl)).2
        · cases hs
      · cases hs
    · split at hs
      · exact lt_nextSession_of_mem_values hwf (List.mem_of_mem_filter hs)
      · next hclosing =>
        obtain rfl := List.mem_singleton.mp hs
        exact ((hwf.closing _ _ hclosing).2 s List.mem_cons_self).2
      · cases hs
    · cases hs

end NestQuickfix.Acceptor
