import NestQuickfix.Acceptor.Entries

/-!
# Calls of `closeAll`

A call of `closeAll` waits for the logouts of the sessions that are registered then, and goes
on after the last one. What a step does with the calls is either nothing, a new call, the end
of a logout that a call waits for, or the end of a call.
-/

namespace NestQuickfix.Acceptor

open Lib Lib.Exec

/-- The call of `closeAll` that a task goes on with. -/
def Frame.call : Frame → Option ℕ
  | .logoutSent _ (.closeAll k) _ | .allClosed k _ => some k
  | _ => none

/-- Whether a task goes on with a call of `closeAll`. -/
def Frame.isCall (frame : Frame) : Bool := frame.call.isSome

/-- The tasks that go on with calls of `closeAll`. -/
def AcceptorState.calls (st : AcceptorState) : List Frame := st.tasks.filter Frame.isCall

/-- Whether a task is a logout that the `k`th call of `closeAll` waits for. -/
def Frame.awaited (k : ℕ) : Frame → Bool
  | .logoutSent _ (.closeAll j) _ => decide (j = k)
  | _ => false

/-- Whether an event goes on with a logout that the `k`th call of `closeAll` waits for. -/
def AcceptorState.endsAwaited (st : AcceptorState) (k : ℕ) : Event → Bool
  | .resume i => st.tasks[i]?.any (Frame.awaited k)
  | _ => false

variable {guard : AcceptorState → Step → Prop} {st st' : AcceptorState} {e : Step} {k : ℕ}

theorem call_of_awaited {frame : Frame} (h : frame.awaited k = true) :
    frame.call = some k := by
  cases frame with
  | logoutSent s caller error =>
    cases caller with
    | closeAll j => exact congrArg some (of_decide_eq_true h)
    | _ => cases h
  | _ => cases h

theorem call_of_allClosed {frame : Frame} {stopping : Bool} (h : frame = .allClosed k stopping) :
    frame.call = some k := h ▸ rfl

theorem not_awaited_of_ne {frame : Frame} {j : ℕ} (h : frame.call = some j) (hne : j ≠ k) :
    frame.awaited k = false := by
  by_contra hawaited
  have hk := call_of_awaited (Bool.eq_true_of_not_eq_false hawaited)
  rw [h] at hk
  exact hne (Option.some.inj hk)

theorem mem_calls_of_goesOn {event : Event} {frame : Frame} (h : st.GoesOn event frame)
    (hcall : frame.isCall = true) : frame ∈ st.calls := by
  obtain ⟨i, _, hf⟩ := h
  exact List.mem_filter.mpr ⟨List.mem_of_getElem? hf, hcall⟩

theorem countP_awaited (st : AcceptorState) (k : ℕ) :
    st.tasks.countP (Frame.awaited k) = st.calls.countP (Frame.awaited k) := by
  unfold AcceptorState.calls
  rw [List.countP_filter]
  refine List.countP_congr fun frame _ => ?_
  rw [Bool.and_eq_true, iff_self_and]
  intro h
  rw [Frame.isCall, call_of_awaited h]
  rfl

theorem calls_take {i : ℕ} {frame : Frame} (hf : st.tasks[i]? = some frame)
    (h : frame.isCall = false) : ((Act.take i).apply st).calls = st.calls := by
  obtain ⟨hi, hframe⟩ := List.getElem?_eq_some_iff.mp hf
  have hsplit : st.tasks = st.tasks.take i ++ frame :: st.tasks.drop (i + 1) := by
    rw [← hframe, List.getElem_cons_drop, List.take_append_drop]
  have hskip : (frame :: st.tasks.drop (i + 1)).filter Frame.isCall =
      (st.tasks.drop (i + 1)).filter Frame.isCall :=
    List.filter_cons_of_neg (Bool.eq_false_iff.mp h)
  unfold AcceptorState.calls Act.apply
  dsimp only
  rw [List.eraseIdx_eq_take_drop_succ]
  conv_rhs => rw [hsplit]
  rw [List.filter_append, List.filter_append, hskip]

theorem calls_taken {i : ℕ} {frame : Frame} (hf : st.tasks[i]? = some frame)
    (h : frame.isCall = true) : (frame :: ((Act.take i).apply st).calls).Perm st.calls := by
  obtain ⟨hi, hframe⟩ := List.getElem?_eq_some_iff.mp hf
  have hperm := (List.getElem_cons_eraseIdx_perm hi).filter Frame.isCall
  rwa [hframe, List.filter_cons_of_pos h] at hperm

/-! ## Steps of other tasks -/

/-- Nothing but `closeAll` itself and its own tasks concerns its calls. -/
theorem calls_kept (hstep : st.step e = some st') (hstop : e.event ≠ .stop)
    (hcloseAll : e.event ≠ .closeAll)
    (hgoes : ∀ frame, st.GoesOn e.event frame → frame.isCall = false) :
    st'.closeAlls = st.closeAlls ∧ st'.calls = st.calls := by
  have hlogsOut : ∀ s k, ¬ (st.meets e).LogsOut e.event s (.closeAll k) := by
    rintro s k h
    cases hevent : e.event <;> rw [hevent] at h hstop hcloseAll <;> cases h
    · exact hstop rfl
    · exact hcloseAll rfl
  refine step_keeps_taken hstep (P := fun st1 => st1.closeAlls = st.closeAlls ∧
    st1.calls = st.calls) ?_ ?_
  · rcases e with ⟨event, input⟩
    cases event with
    | resume i =>
      refine ⟨rfl, ?_⟩
      obtain ⟨frame, hf⟩ := exists_task_of_step hstep rfl
      have hf' : (st.meets ⟨.resume i, input⟩).tasks[i]? = some frame := hf
      exact calls_take hf' (hgoes frame ⟨i, rfl, hf⟩)
    | _ => exact ⟨rfl, rfl⟩
  · rintro st1 a ha htake ⟨hcloseAlls, hcalls⟩
    have hcall : ∀ stopping, a ≠ .callCloseAll stopping := by
      rintro stopping rfl
      cases stopping
      · exact hcloseAll ha
      · exact hstop ha
    have hsettle : ∀ k result, a ≠ .settleCloseAll k result := by
      rintro k result rfl
      rcases ha with ⟨s, h, _⟩ | ⟨s, error, h, _⟩
      · exact hlogsOut s k h
      · cases hgoes _ h
    refine ⟨(closeAlls_apply hcall hsettle st1).trans hcloseAlls, ?_⟩
    have hadds : (a.adds st1).filter Frame.isCall = [] := by
      refine List.filter_eq_nil_iff.mpr fun frame hframe hcalled => ?_
      cases a with
      | suspend frame' =>
        obtain rfl := List.mem_singleton.mp hframe
        cases frame with
        | logoutSent s caller error =>
          cases caller with
          | closeAll k => exact hlogsOut s k ha.1
          | _ => cases hcalled
        | allClosed k stopping => exact ha
        | _ => cases hcalled
      | callCloseAll stopping => exact hcall stopping rfl
      | settleCloseAll k result => exact hsettle k result rfl
      | _ => cases hframe
    unfold AcceptorState.calls at hcalls ⊢
    rw [tasks_apply htake, List.filter_append, hadds, List.append_nil]
    exact hcalls

/-! ## New calls -/

/-- A message is sent: the tasks, the calls and the states of sessions stay. -/
theorem result_startSend (st : AcceptorState) (s : ℕ) (m : Message) : ∃ error st',
    (startSend s m).result st = (.ok error, st') ∧ st'.tasks = st.tasks ∧
      st'.closeAlls = st.closeAlls ∧ ∀ y, (st'.sessions y).state = (st.sessions y).state := by
  obtain ⟨error, herror⟩ := noThrow_startSend s m st
  rcases hr : (startSend s m).result st with ⟨r, st'⟩
  rw [hr] at herror
  obtain rfl : r = .ok error := herror
  have hpath : Performs (sendActs s) st (startSend s m) := performs_startSend s m fun _ => id
  unfold Performs Does Exec.after at hpath
  rw [hr] at hpath
  refine ⟨error, st', rfl, hpath.eq_of (f := AcceptorState.tasks) ?_,
    hpath.eq_of (f := AcceptorState.closeAlls) ?_, fun y =>
      hpath.eq_of (f := fun st => (st.sessions y).state) ?_⟩
  · rintro st1 a (rfl | ⟨_, _, rfl⟩) <;> rfl
  · rintro st1 a (rfl | ⟨_, _, rfl⟩) <;> rfl
  · rintro st1 a (rfl | ⟨_, _, rfl⟩)
    · rw [sessions_apply_eq]
      unfold Act.onSession
      dsimp only
      split <;> rfl
    · rfl

/-- The logout of a session that is not DISCONNECTED is suspended. -/
theorem result_logout {s : ℕ} (hs : (st.sessions s).state ≠ .disconnected) (reason : Value)
    (caller : LogoutCaller) : ∃ error st', (logout s reason caller).result st = (.ok (), st') ∧
      st'.tasks = st.tasks ++ [.logoutSent s caller error] ∧ st'.closeAlls = st.closeAlls ∧
      ∀ y, (st.sessions y).state ≠ .disconnected → (st'.sessions y).state ≠ .disconnected := by
  obtain ⟨error, st', hr, htasks, hcloseAlls, hstates⟩ := result_startSend
    (st.withSessionAs s fun x => { x with state := .loggingOut }) s (logoutMessage reason)
  refine ⟨error, (Act.suspend (.logoutSent s caller error)).apply st', ?_, ?_, hcloseAlls,
    fun y hy => ?_⟩
  · unfold logout
    rw [result_bind, result_get]
    dsimp only
    rw [if_neg hs, result_bind, result_updateSession]
    dsimp only
    rw [result_bind, hr]
    rfl
  · exact congrArg (· ++ _) htasks
  · have hstate : ((st.withSessionAs s fun x => { x with state := .loggingOut }).sessions y).state ≠
        .disconnected := by
      rw [withSessionAs_sessions]
      split
      · exact SessionState.noConfusion
      · exact hy
    exact fun h => hstate ((hstates y).symm.trans h)

/-- The logouts of sessions that are not DISCONNECTED are all suspended. -/
theorem after_logouts (sessions : List ℕ) (k : ℕ)
    (hrun : ∀ s ∈ sessions, (st.sessions s).state ≠ .disconnected) :
    ∃ frames : List Frame, frames.length = sessions.length ∧
      (∀ frame ∈ frames, frame.awaited k = true) ∧
      ((Exec.forEach sessions fun s => logout s .undefined (.closeAll k)).after st).tasks =
        st.tasks ++ frames ∧
      ((Exec.forEach sessions fun s => logout s .undefined (.closeAll k)).after st).closeAlls =
        st.closeAlls := by
  induction sessions generalizing st with
  | nil => exact ⟨[], rfl, List.forall_mem_nil _, (List.append_nil _).symm, rfl⟩
  | cons s sessions ih =>
    obtain ⟨error, st1, hr, htasks, hcloseAlls, hstates⟩ :=
      result_logout (hrun s List.mem_cons_self) .undefined (.closeAll k)
    have hrun1 : ∀ x ∈ sessions, (st1.sessions x).state ≠ .disconnected := fun x hx =>
      hstates x (hrun x (List.mem_cons_of_mem s hx))
    obtain ⟨frames, hlength, hawaited, htasks', hcloseAlls'⟩ := ih hrun1
    refine ⟨.logoutSent s (.closeAll k) error :: frames, ?_, ?_, ?_, ?_⟩
    · exact congrArg (· + 1) hlength
    · intro frame hframe
      rcases List.mem_cons.mp hframe with rfl | hframe
      · exact decide_eq_true rfl
      · exact hawaited frame hframe
    · rw [Exec.forEach, after_bind_of_ok hr, htasks', htasks, List.append_assoc]
      rfl
    · rw [Exec.forEach, after_bind_of_ok hr, hcloseAlls', hcloseAlls]

/-- A call of `closeAll` when no session is DISCONNECTED. -/
theorem calls_called (st : AcceptorState) (stopping : Bool)
    (hrun : ∀ s ∈ st.registry.values, (st.sessions s).state ≠ .disconnected) :
    ∃ frames : List Frame, ((closeAll stopping).after st).calls = st.calls ++ frames ∧
      ((closeAll stopping).after st).closeAlls =
        st.closeAlls ++ [⟨st.registry.values.length, false, stopping⟩] ∧
      (st.registry.values.length = 0 ∧ frames = [.allClosed st.closeAlls.length stopping] ∨
        0 < st.registry.values.length ∧ frames.length = st.registry.values.length ∧
          ∀ frame ∈ frames, frame.awaited st.closeAlls.length = true) := by
  unfold closeAll
  rw [after_bind_of_ok (result_get st)]
  dsimp only
  rw [after_bind_of_ok (result_modify _ st)]
  split
  · next hnil =>
    refine ⟨[.allClosed st.closeAlls.length stopping], ?_, rfl, Or.inl ⟨?_, rfl⟩⟩
    · exact List.filter_append ..
    · rw [hnil]
      rfl
  · next hne =>
    have hrun' : ∀ s ∈ st.registry.values, (AcceptorState.sessions { st with
        closeAlls := st.closeAlls ++ [⟨st.registry.values.length, false, stopping⟩] } s).state ≠
          .disconnected := hrun
    obtain ⟨frames, hlength, hawaited, htasks, hcloseAlls⟩ :=
      after_logouts st.registry.values st.closeAlls.length hrun'
    refine ⟨frames, ?_, hcloseAlls, Or.inr ⟨List.length_pos_of_ne_nil hne, hlength, hawaited⟩⟩
    have hcalls : frames.filter Frame.isCall = frames := by
      refine List.filter_eq_self.mpr fun frame hframe => ?_
      rw [Frame.isCall, call_of_awaited (hawaited frame hframe)]
      rfl
    unfold AcceptorState.calls
    rw [htasks, List.filter_append, hcalls]

/-! ## Ends of logouts and of calls -/

/-- After its message a logout disconnects the session, unless the first listener throws. -/
theorem timer_afterLogoutSent (s : ℕ) (hcalm : st.input.calmFor 1 = true) :
    (((afterLogoutSent s).after st).sessions s).heartbeatTimer = false := by
  obtain ⟨u, hu⟩ := (calls_emit s .loggingOut).ok_iff.mpr hcalm
  rcases hr : (emit s .loggingOut).result st with ⟨r, st1⟩
  rw [hr] at hu
  obtain rfl : r = .ok u := hu
  have hsame : ∀ {x : AcceptorM Unit}, (∀ st, (x.after st).sessions = st.sessions) →
      Triple (fun st => (st.sessions s).heartbeatTimer = false) x
        (fun _ st => (st.sessions s).heartbeatTimer = false)
        (fun st => (st.sessions s).heartbeatTimer = false) :=
    fun h => .of_after fun st hst => by rwa [h st]
  have hremove : ∀ st : AcceptorState, ((removeId s).after st).sessions = st.sessions := by
    intro st
    rw [after_removeId]
    exact withoutEntry_congr st _ fun _ _ => rfl
  have hemit : ∀ st : AcceptorState, ((emit s .loggedOut).after st).sessions = st.sessions :=
    fun st => (performs_emit s .loggedOut fun _ => id).eq_of (f := AcceptorState.sessions) <| by
      rintro st1 a (rfl | rfl) <;> rfl
  have hrest : Triple (fun _ => True) (handleDisconnect s >>= fun _ => endWritable s >>= fun _ =>
      removeId s >>= fun _ => emit s .loggedOut)
      (fun _ st => (st.sessions s).heartbeatTimer = false)
      (fun st => (st.sessions s).heartbeatTimer = false) :=
    .bind (.of_after fun _ _ => timer_handleDisconnect s) fun _ =>
      .bind (hsame fun _ => sessions_endWritable s) fun _ =>
        .bind (hsame hremove) fun _ => hsame hemit
  unfold afterLogoutSent
  rw [after_bind_of_ok hr]
  exact hrest.after trivial

theorem quiet_afterLogoutSent (st : AcceptorState) (s : ℕ) :
    ((afterLogoutSent s).after st).tasks = st.tasks ∧
      ((afterLogoutSent s).after st).closeAlls = st.closeAlls := by
  have hquiet : ∀ st1 a, a ∈ afterLogoutActs st s →
      (a.apply st1).tasks = st1.tasks ∧ (a.apply st1).closeAlls = st1.closeAlls := by
    rintro st1 a (((rfl | rfl) | rfl | rfl) |
      (rfl | rfl | rfl | ⟨_, rfl⟩) | ⟨_, rfl | rfl⟩)
    on_goal 10 =>
      exact ⟨withoutEnded_congr st1 s (f := AcceptorState.tasks) fun _ _ => rfl,
        withoutEnded_congr st1 s (f := AcceptorState.closeAlls) fun _ _ => rfl⟩
    all_goals exact ⟨rfl, rfl⟩
  have hpath : Performs (afterLogoutActs st s) st (afterLogoutSent s) :=
    performs_afterLogoutSent s fun _ => id
  exact ⟨hpath.eq_of (f := AcceptorState.tasks) fun st1 a ha => (hquiet st1 a ha).1,
    hpath.eq_of (f := AcceptorState.closeAlls) fun st1 a ha => (hquiet st1 a ha).2⟩

/-- An awaited logout succeeds when no user code throws, and its call hears of it. -/
theorem calls_settled {i s : ℕ} {error : Option JSError} {c : CloseAll}
    (hf : st.tasks[i]? = some (.logoutSent s (.closeAll k) error))
    (hcalm : st.input.calmFor (2 + st.disconnectCalls s) = true) (hc : st.closeAlls[k]? = some c) :
    ((perform (.resume i)).after st).closeAlls = st.closeAlls.set k (c.settle (.ok ())) ∧
    (.logoutSent s (.closeAll k) error :: ((perform (.resume i)).after st).calls).Perm (st.calls ++
      if (c.settle (.ok ())).complete then [.allClosed k c.stopping] else []) ∧
    (((perform (.resume i)).after st).sessions s).heartbeatTimer = false := by
  obtain ⟨st1, hst1⟩ : ∃ st1, st1 = (Act.take i).apply st := ⟨_, rfl⟩
  have hcalm1 : st1.input.calmFor (2 + st1.disconnectCalls s) = true := hst1 ▸ hcalm
  have hcalls : Calls (2 + st1.disconnectCalls s) st1 (afterLogoutSent s) :=
    calls_afterLogoutSent s
  obtain ⟨u, hu⟩ := hcalls.ok_iff.mpr hcalm1
  have hquiet := quiet_afterLogoutSent st1 s
  have htimer : (((afterLogoutSent s).after st1).sessions s).heartbeatTimer = false := by
    refine timer_afterLogoutSent s ?_
    rw [show 2 + st1.disconnectCalls s = 1 + (1 + st1.disconnectCalls s) by omega,
      Input.calmFor_add] at hcalm1
    exact (Bool.and_eq_true_iff.mp hcalm1).1
  rcases hr : (afterLogoutSent s).result st1 with ⟨r, st2⟩
  rw [hr] at hu
  obtain rfl : r = .ok u := hu
  rw [after_of_result hr] at hquiet htimer
  obtain ⟨htasks, hcloseAlls⟩ := hquiet
  have hafter : (perform (.resume i)).after st = st2.settled k (.ok ()) := by
    rw [after_resume hf, ← hst1]
    have hattempt : (attempt (afterLogoutSent s)).result st1 = (.ok (.ok ()), st2) := by
      rw [result_attempt, hr]
    exact (after_bind_of_ok hattempt).trans (after_settleLogout k (.ok ()))
  have hc2 : st2.closeAlls[k]? = some c := by
    rw [hcloseAlls, hst1]
    exact hc
  have hsettled : st2.settled k (.ok ()) = { st2 with
      closeAlls := st2.closeAlls.set k (c.settle (.ok ()))
      tasks := st2.tasks ++
        if (c.settle (.ok ())).complete then [.allClosed k c.stopping] else [] } := by
    unfold AcceptorState.settled
    rw [hc2]
  rw [hafter, hsettled]
  refine ⟨?_, ?_, htimer⟩
  · rw [hcloseAlls, hst1]
    rfl
  · have hends : (if (c.settle (.ok ())).complete then [Frame.allClosed k c.stopping]
        else []).filter Frame.isCall =
        if (c.settle (.ok ())).complete then [Frame.allClosed k c.stopping] else [] := by
      split <;> rfl
    have hperm := calls_taken hf rfl
    rw [← hst1] at hperm
    unfold AcceptorState.calls at hperm ⊢
    dsimp only
    rw [List.filter_append, hends, htasks]
    exact hperm.append_right _

/-- `closeAll` goes on after the logouts. -/
theorem calls_resolved {i : ℕ} {stopping : Bool}
    (hf : st.tasks[i]? = some (.allClosed k stopping)) :
    ((perform (.resume i)).after st).closeAlls = st.closeAlls ∧
    (.allClosed k stopping :: ((perform (.resume i)).after st).calls).Perm st.calls ∧
    ((perform (.resume i)).after st).registry = .empty ∧
    (stopping = true → .closeAllSockets ∈ ((perform (.resume i)).after st).tasks) := by
  have hperm := calls_taken hf rfl
  rw [after_resume hf]
  unfold resume
  rw [after_bind_of_ok (result_modify _ _)]
  cases stopping with
  | false => exact ⟨rfl, hperm, rfl, Bool.noConfusion⟩
  | true =>
    refine ⟨rfl, ?_, rfl, fun _ => List.mem_append_right _ (List.mem_singleton_self _)⟩
    have hskip : ((Act.take i).apply st).calls ++ [Frame.closeAllSockets].filter Frame.isCall =
        ((Act.take i).apply st).calls := List.append_nil _
    rw [← hskip] at hperm
    unfold AcceptorState.calls at hperm ⊢
    rw [← List.filter_append] at hperm
    exact hperm

/-! ## Steps -/

/-- What a step does with the calls of `closeAll`. -/
inductive CallsStep (st : AcceptorState) (e : Step) (st' : AcceptorState) : Prop
  | none (hcloseAlls : st'.closeAlls = st.closeAlls) (hcalls : st'.calls = st.calls)
      (hgoes : ∀ frame, st.GoesOn e.event frame → frame.isCall = false)
  | called {n : ℕ} {stopping : Bool} {frames : List Frame}
      (hcloseAlls : st'.closeAlls = st.closeAlls ++ [⟨n, false, stopping⟩])
      (hcalls : st'.calls = st.calls ++ frames)
      (hframes : n = 0 ∧ frames = [.allClosed st.closeAlls.length stopping] ∨
        0 < n ∧ frames.length = n ∧
          ∀ frame ∈ frames, frame.awaited st.closeAlls.length = true)
      (hgoes : ∀ frame, st.GoesOn e.event frame → frame.isCall = false)
  | settled {k s : ℕ} {error : Option JSError} {c : CloseAll}
      (hgoes : st.GoesOn e.event (.logoutSent s (.closeAll k) error))
      (hc : st.closeAlls[k]? = some c)
      (hcloseAlls : st'.closeAlls = st.closeAlls.set k (c.settle (.ok ())))
      (hcalls : (.logoutSent s (.closeAll k) error :: st'.calls).Perm (st.calls ++
        if (c.settle (.ok ())).complete then [.allClosed k c.stopping] else []))
  | resolved {k : ℕ} {stopping : Bool} (hgoes : st.GoesOn e.event (.allClosed k stopping))
      (hcloseAlls : st'.closeAlls = st.closeAlls)
      (hcalls : (.allClosed k stopping :: st'.calls).Perm st.calls)
      (hempty : st'.registry = .empty)
      (hstop : stopping = true → .closeAllSockets ∈ st'.tasks)

theorem CallsStep.length_le (h : CallsStep st e st') :
    st.closeAlls.length ≤ st'.closeAlls.length := by
  cases h with
  | none hcloseAlls => exact Nat.le_of_eq (congrArg List.length hcloseAlls.symm)
  | called hcloseAlls =>
    rw [hcloseAlls, List.length_append]
    exact Nat.le_add_right _ _
  | settled _ _ hcloseAlls =>
    rw [hcloseAlls, List.length_set]
  | resolved _ hcloseAlls => exact Nat.le_of_eq (congrArg List.length hcloseAlls.symm)

/-- A call that is under way after a step was under way before, or begins in the step. -/
theorem CallsStep.underWay (h : CallsStep st e st') {frame : Frame} (hframe : frame ∈ st'.calls)
    (hk : frame.call = some k) (hlt : k < st.closeAlls.length) :
    ∃ frame' ∈ st.calls, frame'.call = some k := by
  cases h with
  | none _ hcalls => exact ⟨frame, hcalls ▸ hframe, hk⟩
  | called _ hcalls hframes =>
    rw [hcalls] at hframe
    refine ⟨frame, (List.mem_append.mp hframe).resolve_right fun hnew => ?_, hk⟩
    have hnew' : frame.call = some st.closeAlls.length := by
      rcases hframes with ⟨_, rfl⟩ | ⟨_, _, hawaited⟩
      · exact call_of_allClosed (List.mem_singleton.mp hnew)
      · exact call_of_awaited (hawaited frame hnew)
    exact Nat.ne_of_lt hlt (Option.some.inj (hk.symm.trans hnew'))
  | @settled j s error c hgoes _ _ hcalls =>
    rcases List.mem_append.mp (hcalls.mem_iff.mp (List.mem_cons_of_mem _ hframe)) with hold | hnew
    · exact ⟨frame, hold, hk⟩
    · refine ⟨_, mem_calls_of_goesOn hgoes rfl, ?_⟩
      split at hnew
      · exact (call_of_allClosed (List.mem_singleton.mp hnew)).symm.trans hk
      · cases hnew
  | resolved _ _ hcalls => exact ⟨frame, hcalls.mem_iff.mp (List.mem_cons_of_mem _ hframe), hk⟩

theorem endsAwaited_of_goesOn {event : Event} {frame : Frame} (h : st.GoesOn event frame) :
    st.endsAwaited k event = frame.awaited k := by
  obtain ⟨i, rfl, hf⟩ := h
  unfold AcceptorState.endsAwaited
  dsimp only
  rw [hf]
  rfl

theorem endsAwaited_of_others {event : Event}
    (h : ∀ frame, st.GoesOn event frame → frame.isCall = false) :
    st.endsAwaited k event = false := by
  by_contra hends
  unfold AcceptorState.endsAwaited at hends
  split at hends
  · next i =>
    obtain ⟨frame, hf, hawaited⟩ :=
      (Option.any_eq_true _ _).mp (Bool.eq_true_of_not_eq_false hends)
    have hcall := h frame ⟨i, rfl, hf⟩
    rw [Frame.isCall, call_of_awaited hawaited] at hcall
    cases hcall
  · exact hends rfl

/-- A step ends at most one logout that a call under way waits for, and adds none. -/
theorem CallsStep.awaited (h : CallsStep st e st') (hk : k < st.closeAlls.length) :
    st.calls.countP (Frame.awaited k) = st'.calls.countP (Frame.awaited k) +
      if st.endsAwaited k e.event then 1 else 0 := by
  cases h with
  | none _ hcalls hgoes =>
    rw [endsAwaited_of_others hgoes, hcalls]
    rfl
  | @called n stopping frames _ hcalls hframes hgoes =>
    have hnew : frames.countP (Frame.awaited k) = 0 := by
      refine List.countP_eq_zero.mpr fun frame hframe => ?_
      have hne : st.closeAlls.length ≠ k := Nat.ne_of_gt hk
      rcases hframes with ⟨_, rfl⟩ | ⟨_, _, hawaited⟩
      · obtain rfl := List.mem_singleton.mp hframe
        exact Bool.false_ne_true
      · have hcall := call_of_awaited (hawaited frame hframe)
        exact Bool.eq_false_iff.mp (not_awaited_of_ne hcall hne)
    rw [endsAwaited_of_others hgoes, hcalls, List.countP_append, hnew]
    rfl
  | @settled j s error c hgoes _ _ hcalls =>
    have hnew : (if (c.settle (.ok ())).complete then [Frame.allClosed j c.stopping]
        else []).countP (Frame.awaited k) = 0 := by
      split <;> rfl
    have hsum := hcalls.countP_eq (Frame.awaited k)
    rw [List.countP_append, hnew, List.countP_cons] at hsum
    rw [endsAwaited_of_goesOn hgoes]
    exact hsum.symm
  | resolved hgoes _ hcalls =>
    have hsum := hcalls.countP_eq (Frame.awaited k)
    rw [List.countP_cons] at hsum
    rw [endsAwaited_of_goesOn hgoes]
    exact hsum.symm

theorem goesOn_unique {event : Event} {frame frame' : Frame} (h : st.GoesOn event frame)
    (h' : st.GoesOn event frame') : frame = frame' := by
  obtain ⟨i, rfl, hf⟩ := h
  obtain ⟨j, hj, hf'⟩ := h'
  obtain rfl := Event.resume.inj hj
  exact Option.some.inj (hf.symm.trans hf')

theorem CallsStep.of_resolves (h : CallsStep st e st') {stopping : Bool}
    (hgoes : st.GoesOn e.event (.allClosed k stopping)) : st'.closeAlls = st.closeAlls ∧
      st'.registry = .empty ∧ (stopping = true → .closeAllSockets ∈ st'.tasks) := by
  cases h with
  | none _ _ hnone => cases hnone _ hgoes
  | called _ _ _ hnone => cases hnone _ hgoes
  | settled hgoes' => cases goesOn_unique hgoes hgoes'
  | resolved hgoes' hcloseAlls _ hempty hstop =>
    cases goesOn_unique hgoes hgoes'
    exact ⟨hcloseAlls, hempty, hstop⟩

/-- A call keeps whether `stop` has made it. -/
theorem CallsStep.stopping (h : CallsStep st e st') {c : CloseAll}
    (hc : st'.closeAlls[k]? = some c) (hk : k < st.closeAlls.length) :
    ∃ c', st.closeAlls[k]? = some c' ∧ c'.stopping = c.stopping := by
  cases h with
  | none hcloseAlls => exact ⟨c, hcloseAlls ▸ hc, rfl⟩
  | called hcloseAlls =>
    rw [hcloseAlls, List.getElem?_append_left hk] at hc
    exact ⟨c, hc, rfl⟩
  | @settled j s error c' hgoes hc' hcloseAlls =>
    rw [hcloseAlls] at hc
    by_cases hj : j = k
    · subst hj
      rw [List.getElem?_set_self hk] at hc
      obtain rfl := Option.some.inj hc
      exact ⟨c', hc', rfl⟩
    · rw [List.getElem?_set_ne hj] at hc
      exact ⟨c, hc, rfl⟩
  | resolved _ hcloseAlls => exact ⟨c, hcloseAlls ▸ hc, rfl⟩

end NestQuickfix.Acceptor
