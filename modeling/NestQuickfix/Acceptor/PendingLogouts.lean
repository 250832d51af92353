import NestQuickfix.Acceptor.Routine
import NestQuickfix.Acceptor.Settling

/-!
# Pending logouts

`logout` puts its session into LOGGING_OUT before it sends its message, and only the task
that waits for the message takes the session out of this state again. As long as no
listener of LOGGING_OUT throws, which cuts that task short, no session is left in
LOGGING_OUT once the acceptor has come to rest.
-/

namespace NestQuickfix.Acceptor

open Lib Lib.Exec

variable {st st' : AcceptorState} {e : Step} {X : Set ℕ} {s : ℕ} {a : Act}

/-- Every session in LOGGING_OUT, apart from those of `X`, has a logout under way. -/
def AwaitsLogout (X : Set ℕ) (st : AcceptorState) : Prop :=
  ∀ s ∉ X, (st.sessions s).state = .loggingOut →
    ∃ caller error, .logoutSent s caller error ∈ st.tasks

/-- Whether an event goes on with a logout. -/
def AcceptorState.endsLogout (st : AcceptorState) : Event → Bool
  | .resume i =>
    match st.tasks[i]? with
    | some (.logoutSent ..) => true
    | _ => false
  | _ => false

/-- No listener of LOGGING_OUT throws. -/
def LogoutsHeard (st : AcceptorState) (e : Step) : Prop :=
  st.endsLogout e.event = true → e.input.calmFor 1 = true

instance : ∀ (st : AcceptorState) (e : Step), Decidable (LogoutsHeard st e) := fun _ _ =>
  inferInstanceAs (Decidable (_ → _))

/-! ## Acts -/

/-- Only a logout puts a session into LOGGING_OUT. -/
theorem state_apply (ha : ∀ s, a ≠ .beginLogout s)
    (hset : ∀ s, a ≠ .setState s .loggingOut)
    (h : ((a.apply st).sessions s).state = .loggingOut) : (st.sessions s).state = .loggingOut := by
  rw [sessions_apply_eq] at h
  cases a with
  | beginLogout y => exact absurd rfl (ha y)
  | setState y state =>
    simp only [Act.onSession] at h
    split at h
    · obtain rfl : state = .loggingOut := h
      exact absurd rfl (hset y)
    · exact h
  | disconnect y =>
    simp only [Act.onSession] at h
    split at h
    · cases h
    · exact h
  | create config c =>
    simp only [Act.onSession] at h
    split at h
    · cases h
    · exact h
  | addHandlers y metadata =>
    simp only [Act.onSession, Session.withHandlers] at h
    split at h
    · cases hm : metadata.onMessage <;> rw [hm] at h <;> exact h
    · exact h
  | count y =>
    simp only [Act.onSession] at h
    split at h <;> exact h
  | _ => exact h

/-- An act of code that does not log out and takes no task. -/
def Act.logsNoneOut : Act → Bool
  | .beginLogout _ | .take _ => false
  | .setState _ state => state ≠ .loggingOut
  | _ => true

theorem AwaitsLogout.apply (h : AwaitsLogout X st) (ha : a.logsNoneOut = true) :
    AwaitsLogout X (a.apply st) := by
  have hbegin : ∀ s, a ≠ .beginLogout s := by
    rintro s rfl
    cases ha
  have htake : ∀ i, a ≠ .take i := by
    rintro i rfl
    cases ha
  have hset : ∀ s, a ≠ .setState s .loggingOut := by
    rintro s rfl
    simp [Act.logsNoneOut] at ha
  intro s hs hstate
  obtain ⟨caller, error, hmem⟩ := h s hs (state_apply hbegin hset hstate)
  refine ⟨caller, error, ?_⟩
  rw [tasks_apply htake]
  exact List.mem_append_left _ hmem

theorem awaits_of_performs {α : Type} {y : AcceptorM α}
    (h : ∀ st, ∃ A, Performs A st y ∧ ∀ a ∈ A, a.logsNoneOut = true) :
    Exec.Keeps (AwaitsLogout X) y := by
  refine .of_after fun st hst => ?_
  obtain ⟨A, hy, hA⟩ := h st
  exact hy.keeps (P := AwaitsLogout X) (fun st1 a _ ha h1 => h1.apply (hA a ha)) hst

/-- Routine acts log no session out. -/
theorem logsNoneOut_of_routine (ha : a.routine = true) : a.logsNoneOut = true := by
  cases a with
  | take | beginLogout => cases ha
  | setState y state => exact ha
  | _ => rfl

theorem logsNoneOut_refuse {c : ℕ} {rest : List Message} (ha : a ∈ refuseActs c rest) :
    a.logsNoneOut = true := by
  rcases ha with (rfl | ⟨_, rfl⟩ | ⟨_, rfl⟩) | ⟨_, rfl⟩ | rfl | rfl <;> rfl

theorem logsNoneOut_process {c : ℕ} {ms : List Message} (ha : a ∈ processActs st c ms) :
    a.logsNoneOut = true := by
  cases ms with
  | nil => cases ha
  | cons m rest =>
    rcases ha with ⟨rfl, _⟩ | ⟨_, rfl⟩ | rfl | rfl | ⟨_, ⟨_, rfl, _⟩ | ⟨rfl, _⟩⟩ |
      ⟨_, ha | ⟨_, _, rfl | ha⟩⟩
    on_goal 7 => exact logsNoneOut_refuse ha
    on_goal 8 => exact logsNoneOut_of_routine (routine_handleMessage ha)
    all_goals rfl

theorem logsNoneOut_finish (ha : a ∈ finishActs st s) : a.logsNoneOut = true := by
  rcases ha with ⟨_, rfl⟩ | ⟨_, rfl⟩ <;> rfl

theorem logsNoneOut_nextListener (ha : a ∈ nextListenerActs st) : a.logsNoneOut = true := by
  unfold nextListenerActs at ha
  split at ha
  · cases ha
  · obtain rfl := Set.mem_singleton_iff.mp ha
    rfl
  · rcases ha with ha | rfl | rfl | ⟨_, rfl⟩
    · exact logsNoneOut_of_routine (routine_listener ha)
    all_goals rfl

/-- Going on with a task logs a session out only when a Logon replaces it. -/
theorem logsNoneOut_resume {frame : Frame} (hframe : ∀ c m rest, frame ≠ .validated c m rest .valid)
    (ha : a ∈ resumeActs st frame) : a.logsNoneOut = true := by
  cases frame with
  | nextMessage c rest => exact logsNoneOut_process ha
  | validateCredentials c m rest => rcases ha with ⟨_, rfl, _⟩ | ⟨rfl, _⟩ <;> rfl
  | getAllowedSenderCompIds c m rest =>
    obtain ⟨_, rfl, _⟩ := ha
    rfl
  | validated c m rest verdict =>
    cases verdict with
    | valid => exact absurd rfl (hframe c m rest)
    | invalid _ => exact logsNoneOut_refuse ha
    | thrown _ => exact logsNoneOut_refuse ha
  | registration s dropped => exact logsNoneOut_finish ha
  | _ =>
    refine logsNoneOut_of_routine (routine_resume rfl ?_ ?_ ha)
    · rintro _ _ ⟨⟩
    · rintro _ _ ⟨⟩

/-! ## Logouts -/

/-- A logout that is sent is under way. -/
theorem awaits_logout (s : ℕ) (reason : Value) (caller : LogoutCaller) :
    Exec.Keeps (AwaitsLogout X) (logout s reason caller) := by
  refine keeps_get_bind fun st _ => ?_
  split
  · exact awaits_of_performs fun _ => ⟨_, performs_settleLogout fun _ => id, fun _ ha =>
      logsNoneOut_of_routine (routine_settleLogout ha)⟩
  -- the session awaits the end of its own logout from `startSend` on
  refine .bind (Q := fun _ => AwaitsLogout (insert s X)) (.modify fun st hst y hy hstate => ?_)
    fun _ => .bind (Q := fun _ => AwaitsLogout (insert s X)) ?_ fun error =>
      .modify fun st hst y hy hstate => ?_
  · rw [Set.mem_insert_iff, not_or] at hy
    dsimp only at hstate
    rw [Function.update_of_ne hy.1] at hstate
    exact hst y hy.2 hstate
  · have hkeeps : Exec.Keeps (AwaitsLogout (insert s X)) (startSend s (logoutMessage reason)) :=
      awaits_of_performs fun _ => ⟨_, performs_startSend s _ fun _ => id, fun _ ha =>
        logsNoneOut_of_routine (routine_send ha)⟩
    exact (noThrow_startSend s _).triple hkeeps
  · by_cases hys : y = s
    · subst hys
      exact ⟨caller, error, List.mem_append_right _ List.mem_cons_self⟩
    · obtain ⟨caller', error', hmem⟩ := hst y (by simp [hys, hy]) hstate
      exact ⟨caller', error', List.mem_append_left _ hmem⟩

theorem awaits_suspend (frame : Frame) : Exec.Keeps (AwaitsLogout X) (suspend frame) :=
  awaits_of_performs fun _ => ⟨{.suspend frame}, performs_suspend rfl, fun _ ha => ha ▸ rfl⟩

theorem awaits_registerSession (s : ℕ) (dropped : Bool) :
    Exec.Keeps (AwaitsLogout X) (registerSession s dropped) := by
  refine keeps_get_bind fun st _ => ?_
  split
  · exact awaits_of_performs fun _ => ⟨_, performs_finishRegistration s dropped fun _ => id,
      fun _ => logsNoneOut_finish⟩
  · exact awaits_logout _ _ _

theorem awaits_afterValidated {c : ℕ} {m : Message} {rest : List Message} :
    Exec.Keeps (AwaitsLogout X) (afterValidated c m rest .valid) := by
  refine .bind (keeps_get_bind fun st _ => .bind (Q := fun _ => AwaitsLogout X) ?_ fun s =>
    .bind (awaits_registerSession s true) fun _ => .pure fun _ => id) fun s => awaits_suspend _
  exact awaits_of_performs fun _ => ⟨{.create (buildSessionConfig st.config m) c},
    performs_newSession _ _ rfl, fun _ ha => ha ▸ rfl⟩

theorem awaits_closeAll (stopping : Bool) :
    Exec.Keeps (AwaitsLogout X) (closeAll stopping) := by
  refine keeps_get_bind fun st _ => .bind (Q := fun _ => AwaitsLogout X) (.modify fun _ => id)
    fun _ => ?_
  split
  · exact awaits_suspend _
  · exact .forEach _ fun s => awaits_logout s _ _

/-! ## The end of a logout -/

/-- A logout disconnects its session unless the first listener throws. -/
theorem awaits_afterLogoutSent (s : ℕ) :
    Triple (fun st => AwaitsLogout {s} st ∧ st.input.calmFor 1 = true) (afterLogoutSent s)
      (fun _ => AwaitsLogout ∅) (AwaitsLogout ∅) := by
  refine .bind (Q := fun _ => AwaitsLogout {s}) ?_ fun _ => .bind (Q := fun _ => AwaitsLogout ∅) ?_
    fun _ => .bind (Q := fun _ => AwaitsLogout ∅) ?_ fun _ => .bind (Q := fun _ => AwaitsLogout ∅)
      ?_ fun _ => ?_
  · have hkeeps : Exec.Keeps (AwaitsLogout {s}) (emit s .loggingOut) :=
      awaits_of_performs fun _ => ⟨_, performs_emit s .loggingOut fun _ => id, by
        rintro a (rfl | rfl) <;> rfl⟩
    rintro st ⟨hst, hcalm⟩
    refine ⟨(hkeeps st hst).1, fun e st' hr => ?_⟩
    have hthrown : st.input.calmFor 1 = false := (calls_emit s .loggingOut).error e st' hr
    rw [hcalm] at hthrown
    cases hthrown
  · refine .of_after fun st hst y _ hy => ?_
    have hoff : (((handleDisconnect s).after st).sessions s).Off := off_handleDisconnect s
    have hys : y ≠ s := by
      rintro rfl
      rw [hoff.state] at hy
      cases hy
    have hkeeps : AwaitsLogout {s} ((handleDisconnect s).after st) :=
      (performs_handleDisconnect s fun _ => id).keeps (fun st1 a _ ha h1 =>
        h1.apply (logsNoneOut_of_routine (routine_tearDown (Or.inl ha)))) hst
    exact hkeeps y hys hy
  · exact awaits_of_performs fun _ => ⟨{.endSocket s}, performs_endWritable s rfl,
      fun _ ha => ha ▸ rfl⟩
  · exact keeps_get_bind fun st _ => awaits_of_performs fun _ =>
      ⟨{.remove (st.sessions s).sessionId}, performs_removeSession _ rfl, fun _ ha => ha ▸ rfl⟩
  · exact awaits_of_performs fun _ => ⟨_, performs_emit s .loggedOut fun _ => id, by
      rintro a (rfl | rfl) <;> rfl⟩

/-! ## Steps -/

/-- A task that is taken was not the logout of another session. -/
theorem AwaitsLogout.take (h : AwaitsLogout ∅ st) {i : ℕ} {frame : Frame}
    (hf : st.tasks[i]? = some frame)
    (hX : ∀ s caller error, frame = .logoutSent s caller error → s ∈ X) :
    AwaitsLogout X ((Act.take i).apply st) := by
  intro y hy hstate
  obtain ⟨caller, error, hmem⟩ := h y (Set.notMem_empty y) hstate
  refine ⟨caller, error, ?_⟩
  obtain ⟨j, hj⟩ := List.mem_iff_getElem?.mp hmem
  refine List.mem_eraseIdx_iff_getElem?.mpr ⟨j, ?_, hj⟩
  rintro rfl
  rw [hf] at hj
  exact hy (hX y caller error (Option.some.inj hj))

theorem awaitsLogout_step (hstep : st.step e = some st') (hheard : LogoutsHeard st e)
    (h : AwaitsLogout ∅ st) : AwaitsLogout ∅ st' := by
  have hmeets : AwaitsLogout ∅ (st.meets e) := h
  have hacts : (∀ a ∈ eventActs (st.meets e) e.event, a.logsNoneOut = true) →
      AwaitsLogout ∅ st' := by
    intro hacts
    rw [← after_of_step hstep]
    exact (performs_perform e.event).keeps (fun st1 a _ ha h1 => h1.apply (hacts a ha)) hmeets
  have hkeeps : Exec.Keeps (AwaitsLogout ∅) (perform e.event) → AwaitsLogout ∅ st' := by
    intro hkeeps
    rw [← after_of_step hstep]
    exact Triple.after hkeeps hmeets
  cases hevent : e.event with
  | resume i =>
    obtain ⟨frame, hf⟩ := exists_task_of_step hstep hevent
    have hf' : (st.meets e).tasks[i]? = some frame := hf
    rw [← after_resume_step hstep hevent hf]
    cases hframe : frame with
    | logoutSent s caller error =>
      have htaken : AwaitsLogout {s} ((Act.take i).apply (st.meets e)) := by
        refine hmeets.take hf' fun s' caller' error' heq => ?_
        cases hframe.symm.trans heq
        rfl
      have hcalm : ((Act.take i).apply (st.meets e)).input.calmFor 1 = true := by
        refine hheard ?_
        rw [hevent, AcceptorState.endsLogout, hf, hframe]
      refine Triple.after (.bind (awaits_afterLogoutSent s).attempt fun result => ?_)
        ⟨htaken, hcalm⟩
      refine .conseq (awaits_of_performs fun _ => ⟨_, performs_settleLogout fun _ => id, fun _ ha =>
        logsNoneOut_of_routine (routine_settleLogout ha)⟩) (fun st1 h1 => ?_) (fun _ _ => id)
        fun _ => id
      cases result <;> exact h1
    | validated c m rest verdict =>
      have htaken : AwaitsLogout ∅ ((Act.take i).apply (st.meets e)) :=
        hmeets.take hf' fun s caller error heq => by cases hframe.symm.trans heq
      cases verdict with
      | valid => exact Triple.after awaits_afterValidated htaken
      | _ =>
        exact (performs_resume fun _ => id).keeps (fun st1 a _ ha h1 =>
          h1.apply (logsNoneOut_resume (by rintro _ _ _ ⟨⟩) ha)) htaken
    | _ =>
      have htaken : AwaitsLogout ∅ ((Act.take i).apply (st.meets e)) :=
        hmeets.take hf' fun s caller error heq => by cases hframe.symm.trans heq
      exact (performs_resume fun _ => id).keeps (fun st1 a _ ha h1 =>
        h1.apply (logsNoneOut_resume (by rintro _ _ _ ⟨⟩) ha)) htaken
  | logout s reason => exact hkeeps (hevent ▸ awaits_logout s reason .user)
  | stop => exact hkeeps (hevent ▸ awaits_closeAll true)
  | closeAll => exact hkeeps (hevent ▸ awaits_closeAll false)
  | registerSession s => exact hkeeps (hevent ▸ awaits_registerSession s false)
  | data c data => exact hacts fun a ha => logsNoneOut_process (hevent ▸ ha).2
  | handleMessage s m =>
    exact hacts fun a ha => logsNoneOut_of_routine (routine_handleMessage (hevent ▸ ha))
  | heartbeat s => exact hacts fun a ha => logsNoneOut_of_routine (routine_send (hevent ▸ ha))
  | send s m => exact hacts fun a ha => logsNoneOut_of_routine (routine_send (hevent ▸ ha))
  | nextListener => exact hacts fun a ha => logsNoneOut_nextListener (hevent ▸ ha)
  | socketError c error =>
    refine hacts fun a ha => ?_
    rcases hevent ▸ ha with ⟨_, rfl⟩ | ⟨_, rfl⟩ | rfl <;> rfl
  | createSession config c =>
    refine hacts fun a ha => ?_
    rcases hevent ▸ ha with rfl | rfl <;> rfl
  | _ =>
    refine hacts fun a ha => ?_
    rw [hevent] at ha
    obtain rfl := Set.mem_singleton_iff.mp ha
    rfl

theorem awaitsLogout_of_reached (h : acceptor.Reached LogoutsHeard st) : AwaitsLogout ∅ st := by
  refine System.Invariant.of_reached ⟨?_, fun st e st' hst hheard hstep => ?_⟩ h
  · rintro _ ⟨config, rfl⟩ s _ hs
    cases hs
  · exact awaitsLogout_step hstep hheard hst

/-- In a run in which no listener of LOGGING_OUT throws every logout ends: the acceptor comes to
rest of its own accord, whichever sockets close meanwhile, and then no session is in
LOGGING_OUT. -/
theorem logouts_end (h : acceptor.Reached LogoutsHeard st) : ∃ n, ∀ es st',
    acceptor.Guarded (fun st e => e.event.windsDown = true ∧ LogoutsHeard st e) st es →
      acceptor.exec st es = some st' → es.length ≤ n ∧
        ((∀ e : Step, e.event.goesOn = true → st'.step e = none) →
          ∀ s, (st'.sessions s).state ≠ .loggingOut) := by
  obtain ⟨n, hn⟩ := exists_length_le h
  refine ⟨n, fun es st' hes hexec => ⟨hn es st' ?_ hexec, fun hnone s hs => ?_⟩⟩
  · exact System.guarded_mono (fun _ _ => And.left) hes
  · have hreached : acceptor.Reached LogoutsHeard st' :=
      h.exec (System.guarded_mono (fun _ _ => And.right) hes) hexec
    obtain ⟨caller, error, hmem⟩ := awaitsLogout_of_reached hreached s (Set.notMem_empty s) hs
    rw [(settled_iff.mpr hnone).tasks] at hmem
    cases hmem

/-- A client has logged on, and a second Logon of it has replaced its session: the logout of the
old session is under way. -/
def replacingSteps : List Step :=
  (Event.connect (js "client:1")).calmly :: logonSteps 0 (js "CLIENT") ++
    [(Event.data 0 (logonBytes (js "CLIENT"))).calmly, (Event.resume 0).calmly]

theorem logouts_end_replacing : ∃ st ∈ acceptor.exec (broker 0) replacingSteps,
    (st.sessions 0).state = .loggingOut ∧ ∃ n, ∀ es st',
      acceptor.Guarded (fun st e => e.event.windsDown = true ∧ LogoutsHeard st e) st es →
        acceptor.exec st es = some st' → es.length ≤ n ∧
          ((∀ e : Step, e.event.goesOn = true → st'.step e = none) →
            ∀ s, (st'.sessions s).state ≠ .loggingOut) := by
  have hguarded : acceptor.Guarded LogoutsHeard (broker 0) replacingSteps := by decide +kernel
  have hrun : ∃ st ∈ acceptor.exec (broker 0) replacingSteps,
      (st.sessions 0).state = .loggingOut := by decide +kernel
  obtain ⟨st, hst, hstate⟩ := hrun
  have hreached : acceptor.Reached LogoutsHeard (broker 0) := .init ⟨_, rfl⟩
  exact ⟨st, hst, hstate, logouts_end (hreached.exec hguarded hst)⟩

end NestQuickfix.Acceptor
