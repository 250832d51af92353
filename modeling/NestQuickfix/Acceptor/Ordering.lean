import NestQuickfix.Acceptor.Answers
import NestQuickfix.Acceptor.Authentication
import NestQuickfix.Acceptor.Loops

/-!
# The order of the messages of a connection

The loop over the messages of a chunk awaits each of them, but every `data` event starts a
loop of its own. Every function of the acceptor goes on with at most one loop, so a
connection has at most one as long as chunks arrive only when there is none. The messages
behind a Logon then find its session, unless the registration is slower or fails.
-/

namespace NestQuickfix.Acceptor

open Lib Lib.Exec

/-- The tasks that an event leaves suspended. -/
def AcceptorState.others (st : AcceptorState) : Event → List Frame
  | .resume i => st.tasks.eraseIdx i
  | _ => st.tasks

/-- Whether a task belongs to a loop over messages of a connection that processes one of
them or has some left. -/
def Frame.busyOn (c : ℕ) : Frame → Bool
  | .nextMessage c' rest => decide (c' = c) && !rest.isEmpty
  | frame => decide (frame.loop = some c)

/-- When the processing of a message begins, that of all earlier messages of its connection
has finished. -/
def InOrder (st : AcceptorState) (e : Step) : Prop :=
  ∀ c m rest, st.incoming e.event = some (c, m :: rest) →
    ∀ frame ∈ st.others e.event, frame.busyOn c = false

/-- The condition: a chunk with a message arrives on a connection only when no earlier message
of this connection is left or being processed. -/
def ArrivesAlone (st : AcceptorState) (e : Step) : Prop :=
  match e.event with
  | .data c data => (st.sockets c).dataListener = true → processData data ≠ [] →
      ∀ frame ∈ st.tasks, frame.busyOn c = false
  | _ => True

/-- The connection whose Logon is under way in a task. -/
def Frame.logsOn : Frame → Option ℕ
  | .validateCredentials c _ _ | .getAllowedSenderCompIds c _ _ | .validated c _ _ _
  | .created c _ _ _ | .handlersSet c _ _ _ => some c
  | .logonResponse origin _ _ _ => origin.loop
  | _ => none

/-- A message is only answered with 'Session not logged on' when no Logon of its connection is
under way, and no session that was created for the connection under the id of the message
still runs. -/
def RefusesStrangers (st : AcceptorState) (e : Step) : Prop :=
  ∀ c m rest, st.incoming e.event = some (c, m :: rest) → routable m = true →
    st.registry.get? (buildSessionId m) = none →
      (∀ frame ∈ st.others e.event, frame.logsOn ≠ some c) ∧
      ∀ s, (st.sessions s).socket = c → (st.sessions s).sessionId = buildSessionId m →
        (st.sessions s).heartbeatTimer = false

/-- The condition for this: chunks arrive alone, running sessions keep their entries, and no
message of a connection is processed while a session of it waits for its registration. -/
def ArrivesRegistered (st : AcceptorState) (e : Step) : Prop :=
  ArrivesAlone st e ∧ KeepsEntries st e ∧
    ∀ x ∈ st.incoming e.event, x.2 ≠ [] → ∀ s ∈ st.registering, (st.sessions s).socket ≠ x.1

instance : ∀ (st : AcceptorState) (e : Step), Decidable (ArrivesAlone st e)
  | st, ⟨.data c data, _⟩ => inferInstanceAs (Decidable ((st.sockets c).dataListener = true →
      processData data ≠ [] → ∀ frame ∈ st.tasks, frame.busyOn c = false))
  | _, ⟨.connect _, _⟩ | _, ⟨.socketError .., _⟩ | _, ⟨.close _, _⟩ | _, ⟨.nextListener, _⟩
  | _, ⟨.resume _, _⟩ | _, ⟨.heartbeat _, _⟩ | _, ⟨.reject .., _⟩ | _, ⟨.send .., _⟩
  | _, ⟨.logout .., _⟩ | _, ⟨.join .., _⟩ | _, ⟨.leave .., _⟩ | _, ⟨.handleMessage .., _⟩
  | _, ⟨.registerHandlers .., _⟩ | _, ⟨.stop, _⟩ | _, ⟨.closeAll, _⟩ | _, ⟨.newSession .., _⟩
  | _, ⟨.createSession .., _⟩ | _, ⟨.registerSession _, _⟩ | _, ⟨.removeSession _, _⟩ =>
    inferInstanceAs (Decidable True)

instance (st : AcceptorState) (e : Step) : Decidable (ArrivesRegistered st e) :=
  inferInstanceAs (Decidable (ArrivesAlone st e ∧ KeepsEntries st e ∧
    ∀ x ∈ st.incoming e.event, x.2 ≠ [] →
      ∀ s ∈ st.registering, (st.sessions s).socket ≠ x.1))

/-! ## Loops -/

/-- Whether a task is a loop over messages of a connection. -/
def Frame.isLoop (c : ℕ) (frame : Frame) : Bool := frame.loop = some c

/-- The number of suspended loops over messages of a connection. -/
def AcceptorState.loops (st : AcceptorState) (c : ℕ) : ℕ := st.tasks.countP (Frame.isLoop c)

/-- A connection has at most `n` loops. -/
def AtMost (c n : ℕ) (st : AcceptorState) : Prop := st.loops c ≤ n

variable {guard : AcceptorState → Step → Prop} {st st' : AcceptorState} {e : Step} {c n : ℕ}

theorem loops_apply_le {a : Act} (h : ∀ frame, a = .suspend frame → frame.loop ≠ some c)
    (st : AcceptorState) : (a.apply st).loops c ≤ st.loops c := by
  by_cases htake : ∃ i, a = .take i
  · obtain ⟨i, rfl⟩ := htake
    exact (List.eraseIdx_sublist ..).countP_le
  · have hadds : (a.adds st).countP (Frame.isLoop c) = 0 := by
      refine List.countP_eq_zero.mpr fun frame hframe hloop => ?_
      rcases mem_adds hframe with hsuspend | ⟨k, stopping, rfl⟩
      · exact h frame hsuspend (of_decide_eq_true hloop)
      · cases of_decide_eq_true hloop
    unfold AcceptorState.loops
    rw [tasks_apply (not_exists.mp htake), List.countP_append, hadds]
    exact Nat.le_refl _

theorem AtMost.succ (h : AtMost c n st) : AtMost c (n + 1) st := Nat.le_succ_of_le h

/-- The tasks that hold the rest of a loop are counted. -/
theorem loops_le_of_looped {p : List (ℕ × Message)} {loops : List (ℕ × List Message)}
    (h : Looped st p loops st') (c : ℕ) : st'.loops c ≤ st.loops c + loops.length := by
  obtain ⟨frames, _, htasks, _, rfl, _⟩ := h
  have hcount : frames.countP (Frame.isLoop c) ≤ (frames.filterMap Frame.left).length := by
    rw [List.length_filterMap_eq_countP]
    refine List.countP_mono_left fun frame _ hloop => ?_
    have hloop' : frame.left.map Prod.fst = some c :=
      (loop_eq_left frame).symm.trans (of_decide_eq_true hloop)
    obtain ⟨_, hleft, _⟩ := Option.map_eq_some_iff.mp hloop'
    exact Option.isSome_iff_exists.mpr ⟨_, hleft⟩
  unfold AcceptorState.loops
  rw [htasks, List.countP_append]
  exact Nat.add_le_add_left hcount _

/-! ## Functions that go on with one loop -/

/-- A computation goes on with at most one loop. -/
def OneLoopMore (c : ℕ) (x : AcceptorM Unit) : Prop :=
  ∀ n, Triple (AtMost c n) x (fun _ => AtMost c (n + 1)) (AtMost c (n + 1))

theorem oneLoopMore_of_continued {x : AcceptorM Unit}
    (h : ∀ st, ∃ y ms, Continued y ms st (x.after st)) : OneLoopMore c x := by
  refine fun n => .of_after fun st hst => ?_
  obtain ⟨y, ms, hended | ⟨p, rest, hleft, _⟩⟩ := h st
  · exact AtMost.succ (Nat.le_trans (loops_le_of_looped hended c) hst)
  · exact Nat.le_trans (loops_le_of_looped hleft c) (Nat.succ_le_succ hst)

/-- A task of a loop goes on with at most one loop. -/
theorem oneLoopMore_resume {frame : Frame} {x : ℕ} (h : frame.loop = some x) :
    OneLoopMore c (resume frame) := by
  rw [loop_eq_left] at h
  obtain ⟨⟨y, ms⟩, hleft, _⟩ := Option.map_eq_some_iff.mp h
  exact oneLoopMore_of_continued fun st => ⟨y, ms, continued_resume hleft st⟩

theorem oneLoopMore_receive (x : ℕ) (data : List UInt8) : OneLoopMore c (receive x data) := by
  refine oneLoopMore_of_continued fun st => ?_
  unfold receive
  rw [after_bind_of_ok (result_get st)]
  split
  · exact ⟨x, _, continued_processMessages x _ st⟩
  · exact ⟨x, [], Or.inl (.refl st)⟩

/-! ## One loop for each connection -/

theorem loops_eq_zero (h : ∀ frame ∈ st.tasks, frame.loop ≠ some c) : st.loops c = 0 := by
  refine List.countP_eq_zero.mpr fun frame hframe => ?_
  simpa [Frame.isLoop] using h frame hframe

theorem loop_of_busyOn {frame : Frame} (h : frame.busyOn c = true) : frame.loop = some c := by
  cases frame with
  | nextMessage x rest =>
    simp only [Frame.busyOn, Bool.and_eq_true, decide_eq_true_eq] at h
    exact congrArg some h.1
  | _ => exact of_decide_eq_true h

/-- A loop is busy unless it waits for its turn only. -/
theorem busyOn_of_loop {frame : Frame} (hwait : frame.wait ≠ .ready)
    (h : frame.loop = some c) : frame.busyOn c = true := by
  cases frame with
  | nextMessage x rest => exact absurd rfl hwait
  | _ => exact decide_eq_true h

theorem loops_take {i : ℕ} {frame : Frame} (hf : st.tasks[i]? = some frame)
    (hloop : frame.loop = some c) : ((Act.take i).apply st).loops c + 1 = st.loops c := by
  obtain ⟨hi, hframe⟩ := List.getElem?_eq_some_iff.mp hf
  have hcount := (List.getElem_cons_eraseIdx_perm hi).countP_eq (Frame.isLoop c)
  have hisLoop : Frame.isLoop c frame = true := decide_eq_true hloop
  rw [hframe, List.countP_cons, if_pos hisLoop] at hcount
  exact hcount

theorem task_of_processes {i : ℕ} (h : st.Processes (.resume i) c) :
    ∃ frame, st.tasks[i]? = some frame ∧ frame.loop = some c := by
  rcases h with ⟨ms, hin⟩ | ⟨frame, ⟨j, hj, hf⟩, hloop⟩
  · unfold AcceptorState.incoming at hin
    dsimp only at hin
    split at hin
    · next hf =>
      cases hin
      exact ⟨_, hf, rfl⟩
    · cases hin
  · cases hj
    exact ⟨frame, hf, hloop⟩

/-- A connection whose chunk arrives alone has no loop. -/
theorem loops_eq_zero_of_alone {x : ℕ} {data : List UInt8} {input : Input}
    (hstep : st.step ⟨.data x data, input⟩ = some st')
    (halone : ArrivesAlone st ⟨.data x data, input⟩)
    (hlistener : (st.sockets x).dataListener = true) (hne : processData data ≠ []) :
    st.loops x = 0 := by
  have hquiet : st.quiet = true := by
    have henabled := step_enabled hstep
    simp only [AcceptorState.enabled, Bool.and_eq_true] at henabled
    exact henabled.2.1.1.1
  refine loops_eq_zero fun frame hframe hloop => ?_
  have hidle := halone hlistener hne frame hframe
  have hwait := List.all_eq_true.mp hquiet frame hframe
  rw [busyOn_of_loop (of_decide_eq_true hwait) hloop] at hidle
  cases hidle

/-- A chunk only adds a loop to a connection without any. -/
theorem loops_data {x : ℕ} {data : List UInt8} {input : Input}
    (hstep : st.step ⟨.data x data, input⟩ = some st') (hone : st.loops x ≤ 1)
    (halone : ArrivesAlone st ⟨.data x data, input⟩) : st'.loops x ≤ 1 := by
  have hafter : (receive x data).after (st.meets ⟨.data x data, input⟩) = st' :=
    after_of_step hstep
  by_cases hmessages : (st.sockets x).dataListener = true ∧ processData data ≠ []
  · have hzero : st.loops x = 0 := loops_eq_zero_of_alone hstep halone hmessages.1 hmessages.2
    rw [← hafter]
    exact (oneLoopMore_receive x data 0).after (Nat.le_of_eq hzero)
  · have hsame : (receive x data).after (st.meets ⟨.data x data, input⟩) =
        st.meets ⟨.data x data, input⟩ := by
      unfold receive
      rw [after_bind_of_ok (result_get _)]
      split
      · next hlistener =>
        have hnil : processData data = [] := by
          by_contra hne
          exact hmessages ⟨hlistener, hne⟩
        rw [hnil]
        rfl
      · rfl
    rw [← hafter, hsame]
    exact hone

/-- A step adds a loop at most for a chunk that arrives. -/
theorem loops_step (hstep : st.step e = some st') (hone : st.loops c ≤ 1)
    (halone : ArrivesAlone st e) : st'.loops c ≤ 1 := by
  by_cases hprocesses : (st.meets e).Processes e.event c
  · rcases e with ⟨event, input⟩
    cases event with
    | data x data =>
      rcases hprocesses with ⟨ms, hin⟩ | ⟨frame, ⟨i, hi, _⟩, _⟩
      · unfold AcceptorState.incoming at hin
        dsimp only at hin
        split at hin
        · cases hin
          exact loops_data hstep hone halone
        · cases hin
      · cases hi
    | resume i =>
      obtain ⟨frame, hf, hloop⟩ := task_of_processes hprocesses
      have htake := loops_take hf hloop
      have hmeets : (st.meets ⟨.resume i, input⟩).loops c = st.loops c := rfl
      have hzero : ((Act.take i).apply (st.meets ⟨.resume i, input⟩)).loops c ≤ 0 := by omega
      rw [← after_resume_step hstep rfl hf]
      exact (oneLoopMore_resume hloop 0).after hzero
    | _ =>
      rcases hprocesses with ⟨ms, hin⟩ | ⟨frame, ⟨i, hi, _⟩, _⟩
      · cases hin
      · cases hi
  · refine step_keeps hstep (P := AtMost c 1) hone fun st1 a _ ha hle => ?_
    refine Nat.le_trans (loops_apply_le (fun frame hframe hloop => ?_) st1) hle
    subst hframe
    exact hprocesses (processes_of_causedBy ha hloop)

/-- When chunks arrive alone, every connection has at most one loop. -/
theorem oneLoop_of_reached (h : acceptor.Reached ArrivesAlone st) (c : ℕ) : st.loops c ≤ 1 := by
  induction h with
  | init hinit =>
    obtain ⟨config, rfl⟩ := hinit
    exact Nat.zero_le 1
  | step _ halone hstep ih => exact loops_step hstep ih halone

/-- Chunks that arrive alone are processed in order. -/
theorem inOrder_of_arrivesAlone (hone : ∀ c, st.loops c ≤ 1) (h : ArrivesAlone st e) :
    InOrder st e := by
  intro c m rest hin frame hframe
  rcases e with ⟨event, input⟩
  cases event with
  | data x data =>
    unfold AcceptorState.incoming at hin
    dsimp only at hin
    split at hin
    · next hlistener =>
      obtain ⟨rfl, hdata⟩ := Prod.mk.inj (Option.some.inj hin)
      exact h hlistener (hdata ▸ List.cons_ne_nil m rest) frame hframe
    · cases hin
  | resume i =>
    obtain ⟨taken, hf, hloop⟩ := task_of_processes (Or.inl ⟨_, hin⟩)
    have htake := loops_take hf hloop
    have hzero : ((Act.take i).apply st).loops c = 0 := by
      have hle := hone c
      omega
    by_contra hbusy
    have hidle := List.countP_eq_zero.mp hzero frame hframe
    exact hidle (decide_eq_true (loop_of_busyOn (Bool.eq_true_of_not_eq_false hbusy)))
  | _ => cases hin

theorem arrivesAlone_of_inOrder (h : InOrder st e) : ArrivesAlone st e := by
  rcases e with ⟨event, input⟩
  cases event with
  | data c data =>
    intro hlistener hne frame hframe
    obtain ⟨m, rest, hdata⟩ := List.exists_cons_of_ne_nil hne
    refine h c m rest ?_ frame hframe
    exact (if_pos hlistener).trans (congrArg (fun ms => some (c, ms)) hdata)
  | _ => trivial

/-- A run processes the messages of each connection in order exactly when the chunks
arrive alone. -/
theorem inOrder_iff_arrivesAlone (config : AcceptorConfig) (es : List Step) :
    acceptor.Guarded InOrder (.new config) es ↔
      acceptor.Guarded ArrivesAlone (.new config) es := by
  have hinit : ∀ guard, acceptor.Reached guard (.new config) := fun _ => .init ⟨config, rfl⟩
  constructor
  · exact System.Reached.guarded_imp (fun _ _ _ => arrivesAlone_of_inOrder) (hinit _)
  · exact System.Reached.guarded_imp (fun _ _ h => inOrder_of_arrivesAlone (oneLoop_of_reached h))
      (hinit _)

/-! ## Messages behind a Logon -/

theorem busyOn_of_logsOn {frame : Frame} (h : frame.logsOn = some c) :
    frame.busyOn c = true := by
  cases frame with
  | validateCredentials | getAllowedSenderCompIds | validated | created | handlersSet
  | logonResponse => exact decide_eq_true h
  | _ => cases h

/-- A running session of the connection that is neither registered nor waiting is missing. -/
theorem refusesStrangers_of_inOrder (hplaced : AllPlaced False st.lifecycle) (hin : InOrder st e)
    (hregistered : ∀ x ∈ st.incoming e.event, x.2 ≠ [] → ∀ s ∈ st.registering,
      (st.sessions s).socket ≠ x.1) : RefusesStrangers st e := by
  intro c m rest hincoming _ hnone
  refine ⟨fun frame hframe hlogsOn => ?_, fun s hc hid => ?_⟩
  · have hidle := hin c m rest hincoming frame hframe
    rw [busyOn_of_logsOn hlogsOn] at hidle
    cases hidle
  · by_contra htimer
    rcases hplaced.placed s (Bool.eq_true_of_not_eq_false htimer) with hentry | ⟨hwaits, _⟩
    · have hentry' : st.registry.get? (st.sessions s).sessionId = some s := hentry
      rw [hid, hnone] at hentry'
      cases hentry'
    · have hmem := mem_registering_state.mp hwaits
      exact hregistered _ hincoming (List.cons_ne_nil m rest) s hmem hc

/-- Messages are processed in order exactly when chunks arrive alone. When moreover running
sessions keep their entries and their registrations are waited for, no message behind a Logon is
answered with 'Session not logged on'. -/
theorem inOrder_guarded (config : AcceptorConfig) (es : List Step) :
    (acceptor.Guarded InOrder (.new config) es ↔
      acceptor.Guarded ArrivesAlone (.new config) es) ∧
    (acceptor.Guarded ArrivesRegistered (.new config) es →
      acceptor.Guarded RefusesStrangers (.new config) es) := by
  refine ⟨inOrder_iff_arrivesAlone config es,
    System.Reached.guarded_imp (fun st e h hguard => ?_) (.init ⟨config, rfl⟩)⟩
  have hplaced : AllPlaced False st.lifecycle :=
    allPlaced_of_reached (fun _ _ h => h.2.1) False.elim h
  have hone := oneLoop_of_reached (h.mono fun _ _ h => h.1)
  exact refusesStrangers_of_inOrder hplaced (inOrder_of_arrivesAlone hone hguard.1) hguard.2.2

/-- The bytes of a Heartbeat. -/
def heartbeatBytes (client : JSString) : List UInt8 := clientBytes (js "0") client []

/-- A client logs on and then sends a Heartbeat. -/
def beatingSteps : List Step :=
  soleLogonSteps ++ [(Event.data 0 (heartbeatBytes (js "CLIENT"))).calmly]

/-- The Heartbeat of a client that has logged on is processed in order. -/
theorem inOrder_beatingSteps : acceptor.Guarded InOrder (broker 1) beatingSteps ∧
    acceptor.Guarded RefusesStrangers (broker 1) beatingSteps := by
  have hregistered : acceptor.Guarded ArrivesRegistered (broker 1) beatingSteps := by
    decide +kernel
  have halone : acceptor.Guarded ArrivesAlone (broker 1) beatingSteps := by decide +kernel
  obtain ⟨hiff, himp⟩ := inOrder_guarded (broker 1).config beatingSteps
  exact ⟨hiff.mpr halone, himp hregistered⟩

/-- A client sends a Logon. -/
def arrivingSteps : List Step :=
  [Event.connect (js "client:1"), .data 0 (logonBytes (js "CLIENT"))].map Event.calmly

/-- A Heartbeat arrives before the credentials have been validated. -/
def overtakingStep : Step := (Event.data 0 (heartbeatBytes (js "CLIENT"))).calmly

/-- The Heartbeat arrives, and then the callbacks accept the Logon. -/
def overtakenSteps : List Step :=
  arrivingSteps ++ overtakingStep :: (.resume 0 :: List.replicate 4 (.resume 1)).map fun e =>
    ⟨e, { Input.calm with allowedSenderCompIds := [.str (js "CLIENT")] }⟩

/-- The Heartbeat overtakes a valid Logon and is answered with 'Session not logged on'. -/
theorem not_inOrder_overtaken :
    ¬ acceptor.Guarded InOrder authenticatingBroker overtakenSteps ∧
    ¬ acceptor.Guarded RefusesStrangers authenticatingBroker overtakenSteps ∧
    ∃ st ∈ acceptor.exec authenticatingBroker overtakenSteps, .answered 0 ∈ st.trace ∧
      ∃ m ∈ processData (heartbeatBytes (js "CLIENT")),
        ∃ raw ∈ (createLogoutMessage authenticatingBroker.config Input.calm.sendingTime m
          (js "Session not logged on. Please logon first.")).toString.toOption,
          .refused 0 raw ∈ st.trace := by
  have hmeets : ∃ st ∈ acceptor.exec authenticatingBroker arrivingSteps,
      ∃ x ∈ st.incoming overtakingStep.event, ∃ m ∈ x.2.head?, routable m = true ∧
        st.registry.get? (buildSessionId m) = none ∧
          ∃ frame ∈ st.others overtakingStep.event, frame.logsOn = some x.1 := by
    decide +kernel
  obtain ⟨st, hst, x, hin, m, hm, hroutable, hnone, frame, hframe, hlogsOn⟩ := hmeets
  obtain ⟨c, ms⟩ := x
  obtain ⟨rest, rfl⟩ := List.head?_eq_some_iff.mp hm
  refine ⟨fun hguarded => ?_, fun hguarded => ?_, by decide +kernel⟩
  · have hidle := (System.guarded_append hguarded hst).1 c m rest hin frame hframe
    rw [busyOn_of_logsOn hlogsOn] at hidle
    cases hidle
  · have hstranger := (System.guarded_append hguarded hst).1 c m rest hin hroutable hnone
    exact hstranger.1 frame hframe hlogsOn

end NestQuickfix.Acceptor
