import NestQuickfix.Acceptor.Changes

/-!
# What a step can do to the life of sessions

All changes a step can make, with the tasks, listeners and registry entries they
depend on. Every invariant of the acceptor is checked against this list.
-/

namespace NestQuickfix.Acceptor

open Lib Lib.Exec Lifecycle

variable {k : Lifecycle}

/-- The chunk an event goes on with, and its connection. -/
def AcceptorState.incoming (st : AcceptorState) : Event → Option (ℕ × List Message)
  | .data c data => if (st.sockets c).dataListener then some (c, processData data) else none
  | .resume i =>
    match st.tasks[i]? with
    | some (.nextMessage c rest) => some (c, rest)
    | _ => none
  | _ => none

/-- What a step does to the life of sessions. -/
inductive Change (st : AcceptorState) : Step → Lifecycle → Prop
  | kept {e : Step} (h : st.incoming e.event = none) : Change st e st.lifecycle
  | processed {e : Step} {c : ℕ} {ms : List Message} {k' : Lifecycle}
      (h : st.incoming e.event = some (c, ms)) (hk : Processed c ms st.lifecycle k') :
      Change st e k'
  | connected {a : JSString} {input : Input} :
      Change st ⟨.connect a, input⟩ (st.lifecycle.listen st.nextSocket .acceptor)
  | created {i c : ℕ} {m : Message} {rest : List Message} {input : Input} {k' : Lifecycle}
      (hf : st.tasks[i]? = some (.validated c m rest .valid)) (hk : Created st c m k') :
      Change st ⟨.resume i, input⟩ (k'.suspend (.starting c st.nextSession))
  | started {i c s : ℕ} {m : Message} {rest : List Message} {input : Input} {k' : Lifecycle}
      (hf : st.tasks[i]? = some (.handlersSet c s m rest))
      (hk : Handled s m ((st.lifecycle.resume (.starting c s)).listen c (.session s)) k') :
      Change st ⟨.resume i, input⟩ k'
  | loggedOut {i s : ℕ} {caller : LogoutCaller} {error : Option JSError} {input : Input}
      {k' : Lifecycle} (hf : st.tasks[i]? = some (.logoutSent s caller error))
      (hk : TearDowns [s] (st.lifecycle.taken (caller.pending s)) k')
      (hdone : k'.timer s = false ∨ input.thrown.headD none ≠ none) :
      Change st ⟨.resume i, input⟩ (k'.settled caller)
  | registered {i s : ℕ} {dropped : Bool} {input : Input} {k' : Lifecycle}
      (hf : st.tasks[i]? = some (.registration s dropped))
      (hk : Registered s (st.lifecycle.resume (.registering s none)) k') :
      Change st ⟨.resume i, input⟩ k'
  | cleared {i k : ℕ} {stopping : Bool} {input : Input}
      (hf : st.tasks[i]? = some (.allClosed k stopping)) :
      Change st ⟨.resume i, input⟩ st.lifecycle.clear
  | closed {c : ℕ} {input : Input} : Change st ⟨.close c, input⟩ (st.lifecycle.close c)
  | ended {c : ℕ} {input : Input} (h : st.closing = some (c, [])) :
      Change st ⟨.nextListener, input⟩ (st.lifecycle.setClosing none)
  | cleaned {c : ℕ} {ls : List CloseListener} {input : Input} {k' : Lifecycle}
      (h : st.closing = some (c, .acceptor :: ls))
      (hk : TearDowns (st.registry.values.filter fun s => (st.sessions s).socket = c)
        (st.lifecycle.setClosing (some (c, ls))) k') :
      Change st ⟨.nextListener, input⟩ k'
  | listened {c s : ℕ} {ls : List CloseListener} {input : Input} {k' : Lifecycle}
      (h : st.closing = some (c, .session s :: ls))
      (hk : TornDown s (st.lifecycle.setClosing (some (c, ls))) true k') :
      Change st ⟨.nextListener, input⟩ k'
  | threw {c s : ℕ} {ls : List CloseListener} {input : Input} {b : Bool} {k' : Lifecycle}
      (h : st.closing = some (c, .session s :: ls))
      (hk : TornDown s (st.lifecycle.setClosing (some (c, ls))) b k')
      (hthrown : ∃ e, some e ∈ input.thrown) :
      Change st ⟨.nextListener, input⟩ (k'.setClosing none)
  | handled {s : ℕ} {m : Message} {input : Input} {k' : Lifecycle}
      (hk : Handled s m st.lifecycle k') : Change st ⟨.handleMessage s m, input⟩ k'
  | created' {config : SessionConfig} {c : ℕ} {input : Input} :
      Change st ⟨.newSession config c, input⟩
        (st.lifecycle.create (sessionKey config.senderCompId config.targetCompId) c)
  | stored {config : SessionConfig} {c : ℕ} {input : Input} (h : st.limitReached = false) :
      Change st ⟨.createSession config c, input⟩
        ((st.lifecycle.create (sessionKey config.senderCompId config.targetCompId) c).register
          st.nextSession)
  | registering {s : ℕ} {input : Input} {k' : Lifecycle}
      (hk : Registering (fun x => (st.sessions x).state) s st.lifecycle k') :
      Change st ⟨.registerSession s, input⟩ k'
  | removed {sessionId : JSString} {input : Input} :
      Change st ⟨.removeSession sessionId, input⟩ (st.lifecycle.remove sessionId)

/-- A step has been made. -/
def ChangedAt (st : AcceptorState) (e : Step) (st' : AcceptorState) : Prop :=
  ∃ k', Change st e k' ∧ IsAt k' st'

theorem ChangedAt.mono {st : AcceptorState} {e : Step} (st1 st2 : AcceptorState)
    (h : SameLife st1 st2) : ChangedAt st e st1 → ChangedAt st e st2 :=
  fun ⟨k', hk', hst⟩ => ⟨k', hk', Lowered.trans hst h⟩

/-- A computation makes step `e` of `st`. -/
def Makes (st : AcceptorState) (e : Step) (x : AcceptorM Unit) : Prop :=
  Triple (fun st' => st' = { st with input := e.input }) x (fun _ => ChangedAt st e)
    (ChangedAt st e)

theorem makes_of_triple {st : AcceptorState} {e : Step} {x : AcceptorM Unit}
    (h : Triple (IsAt st.lifecycle) x (fun _ => ChangedAt st e) (ChangedAt st e)) :
    Makes st e x := by
  have hlife : AcceptorState.lifecycle { st with input := e.input } = st.lifecycle := rfl
  exact triple_at (hlife ▸ h)

theorem makes_of_keeps {st : AcceptorState} {e : Step} {x : AcceptorM Unit} (hx : Keeps x)
    (h : st.incoming e.event = none) : Makes st e x :=
  makes_of_triple (hx.triple.conseq (fun _ => id) (fun _ _ hst => ⟨_, .kept h, hst⟩)
    fun _ hst => ⟨_, .kept h, hst⟩)

theorem makes_processMessages {st : AcceptorState} {e : Step} {c : ℕ} {ms : List Message}
    (h : st.incoming e.event = some (c, ms)) :
    Triple (IsAt st.lifecycle) (processMessages c ms) (fun _ => ChangedAt st e)
      (ChangedAt st e) := by
  have hk : ∀ st', (∃ k', Processed c ms st.lifecycle k' ∧ IsAt k' st') → ChangedAt st e st' := by
    rintro st' ⟨k', hk', hst'⟩
    exact ⟨k', .processed h hk', hst'⟩
  exact (triple_processMessages c ms).conseq (fun _ => id) (fun _ => hk) hk

theorem makes_receive (st : AcceptorState) (c : ℕ) (data : List UInt8) (input : Input) :
    Makes st ⟨.data c data, input⟩ (receive c data) := by
  refine .get_bind ?_
  rintro _ rfl
  split
  · next hlistener =>
    have hincoming : st.incoming (.data c data) = some (c, processData data) := if_pos hlistener
    exact triple_at (makes_processMessages (e := ⟨.data c data, input⟩) hincoming)
  · next hlistener =>
    have hincoming : st.incoming (.data c data) = none := if_neg hlistener
    exact makes_of_keeps (.pure ()) hincoming

/-! ## Sessions that end -/

/-- The sessions that a message ends: that to which a Logout is passed. -/
def AcceptorState.endedBy (st : AcceptorState) (m : Message) : List ℕ :=
  if m.getField Fields.msgType = MsgType.logout then (st.lifecycle.routed m).toList else []

/-- The sessions that an event may end. -/
def AcceptorState.ends (st : AcceptorState) (e : Event) : List ℕ :=
  match st.incoming e with
  | some (_, ms) => ms.head?.toList.flatMap st.endedBy
  | none =>
    match e with
    | .handleMessage s m => if m.getField Fields.msgType = MsgType.logout then [s] else []
    | .resume i =>
      match st.tasks[i]? with
      | some (.logoutSent s _ _) => [s]
      | some (.handlersSet _ s m _) =>
        if m.getField Fields.msgType = MsgType.logout then [s] else []
      | _ => []
    | .nextListener =>
      match st.closing with
      | some (c, .acceptor :: _) => st.registry.values.filter fun s => (st.sessions s).socket = c
      | some (_, .session s :: _) => [s]
      | _ => []
    | _ => []

/-- Whether an event can happen in an acceptor whose sessions all come from Logons. -/
def Event.fromLogons : Event → Bool
  | .newSession .. | .createSession .. | .registerSession _ => false
  | _ => true

theorem ends_processed {st : AcceptorState} {e : Event} {c s : ℕ} {ms : List Message} {m : Message}
    (h : st.incoming e = some (c, ms)) (hm : ms.head? = some m)
    (hs : st.lifecycle.routed m = some s)
    (hlogout : m.getField Fields.msgType = MsgType.logout) : st.ends e = [s] := by
  simp [AcceptorState.ends, h, hm, AcceptorState.endedBy, hlogout, hs]

theorem ends_handled {st : AcceptorState} {s : ℕ} {m : Message}
    (hlogout : m.getField Fields.msgType = MsgType.logout) :
    st.ends (.handleMessage s m) = [s] := by
  simp [AcceptorState.ends, AcceptorState.incoming, hlogout]

theorem ends_started {st : AcceptorState} {i c s : ℕ} {m : Message} {rest : List Message}
    (hf : st.tasks[i]? = some (.handlersSet c s m rest))
    (hlogout : m.getField Fields.msgType = MsgType.logout) : st.ends (.resume i) = [s] := by
  simp [AcceptorState.ends, AcceptorState.incoming, hf, hlogout]

theorem ends_loggedOut {st : AcceptorState} {i s : ℕ} {caller : LogoutCaller}
    {error : Option JSError} (hf : st.tasks[i]? = some (.logoutSent s caller error)) :
    st.ends (.resume i) = [s] := by
  simp [AcceptorState.ends, AcceptorState.incoming, hf]

theorem ends_cleaned {st : AcceptorState} {c : ℕ} {ls : List CloseListener}
    (h : st.closing = some (c, .acceptor :: ls)) :
    st.ends .nextListener = st.registry.values.filter fun s => (st.sessions s).socket = c := by
  simp [AcceptorState.ends, AcceptorState.incoming, h]

theorem ends_listened {st : AcceptorState} {c s : ℕ} {ls : List CloseListener}
    (h : st.closing = some (c, .session s :: ls)) : st.ends .nextListener = [s] := by
  simp [AcceptorState.ends, AcceptorState.incoming, h]

/-! ## User code that throws -/

/-- No user code called from here on throws. -/
def Calm (st : AcceptorState) : Prop := ∀ e, some e ∉ st.input.thrown

theorem triple_callUser_calm : Triple Calm callUser (fun _ => Calm) fun _ => False := by
  refine .get_bind fun st hst => .bind (Q := fun _ => Calm) (.modify ?_) fun _ => ?_
  · rintro _ rfl e he
    exact hst e (List.mem_of_mem_tail he)
  · split
    · exact .pure fun _ => id
    · next e he =>
      have hmem : some e ∈ st.input.thrown := by
        cases hthrown : st.input.thrown with
        | nil =>
          rw [hthrown] at he
          cases he
        | cons x xs =>
          rw [hthrown] at he
          exact he ▸ List.mem_cons_self
      exact absurd hmem (hst e)

theorem triple_modify_calm {f : AcceptorState → AcceptorState} (h : ∀ st, (f st).input = st.input) :
    Triple Calm (modify f : AcceptorM Unit) (fun _ => Calm) fun _ => False :=
  .modify fun st hst => by rwa [Calm, h st]

theorem triple_get_calm {α : Type} {f : AcceptorState → AcceptorM α}
    (h : ∀ st, Triple Calm (f st) (fun _ => Calm) fun _ => False) :
    Triple Calm (get >>= f) (fun _ => Calm) fun _ => False :=
  .get_bind fun st hst => (h st).conseq (by rintro _ rfl; exact hst) (fun _ _ => id) fun _ => id

theorem triple_emit_calm (s : ℕ) (event : SessionEvent) :
    Triple Calm (emit s event) (fun _ => Calm) fun _ => False :=
  .bind (triple_modify_calm fun _ => rfl) fun _ => triple_callUser_calm

theorem triple_handleDisconnect_calm (s : ℕ) :
    Triple Calm (handleDisconnect s) (fun _ => Calm) fun _ => False := by
  refine .bind (triple_modify_calm fun _ => rfl) fun _ => .bind (Q := fun _ => Calm) ?_ fun _ =>
    .bind (triple_emit_calm s _) fun _ => triple_get_calm fun _ => triple_modify_calm fun _ => rfl
  exact .bind (triple_modify_calm fun _ => rfl) fun _ =>
    triple_get_calm fun _ => .forEach _ fun _ => triple_callUser_calm

theorem triple_removeId_calm (s : ℕ) :
    Triple Calm (removeId s) (fun _ => Calm) fun _ => False := by
  refine triple_get_calm fun _ => triple_get_calm fun _ => ?_
  split
  · exact triple_modify_calm fun _ => rfl
  · exact .pure fun _ => id

/-- A call of user code fails when its first call throws. -/
theorem triple_emit_throws {input : Input} (s : ℕ) (event : SessionEvent) :
    Triple (fun st => st.input = input) (emit s event) (fun _ _ => True)
      fun _ => input.thrown.headD none ≠ none := by
  refine .bind (Q := fun _ st => st.input = input) (.modify fun st h => h) fun _ => .get_bind ?_
  rintro st rfl
  refine .bind (Q := fun _ _ => True) (.modify fun _ _ => trivial) fun _ => ?_
  split
  · exact .pure fun _ _ => trivial
  · next e he => exact .throw fun _ _ => by rw [he]; exact Option.some_ne_none e

/-- Code that only fails when user code throws. -/
theorem triple_thrown {x : AcceptorM Unit} {P E : AcceptorState → Prop}
    {Q : Unit → AcceptorState → Prop} (input : Input) (h : Triple P x Q E)
    (hcalm : Triple Calm x (fun _ => Calm) fun _ => False) :
    Triple (fun st => P st ∧ st.input = input) x Q
      fun st => E st ∧ ∃ e, some e ∈ input.thrown := by
  by_cases hthrown : ∀ e, some e ∉ input.thrown
  · refine (h.and hcalm).conseq ?_ (fun _ _ h => h.1) fun _ h => h.2.elim
    rintro st ⟨hst, rfl⟩
    exact ⟨hst, hthrown⟩
  · push Not at hthrown
    exact h.conseq (fun _ h => h.1) (fun _ _ => id) fun _ h => ⟨h, hthrown⟩

/-- The end of `logout`, which only fails to disconnect when the first listener throws. -/
theorem triple_afterLogoutSent (input : Input) (s : ℕ) :
    Triple (fun st => IsAt k st ∧ st.input = input) (afterLogoutSent s)
      (fun _ => EndedOne s k true)
      (fun st => (∃ b, EndedOne s k b st) ∨ IsAt k st ∧ input.thrown.headD none ≠ none) := by
  refine .bind (Q := fun _ => IsAt k) ?_ fun _ => ?_
  · exact ((keeps_emit s (by decide)).triple.and (triple_emit_throws s _)).conseq (fun _ => id)
      (fun _ _ h => h.1) fun _ => Or.inr
  · exact (triple_endAfterLogout s).conseq (fun _ => id) (fun _ _ => id) fun _ => Or.inl

/-! ## Tasks -/

/-- Taking a task leaves the rest of its step with the life of sessions without the task. -/
theorem makes_resumeTask {st : AcceptorState} {i : ℕ} {input : Input} {frame : Frame}
    (hf : st.tasks[i]? = some frame)
    (h : Triple (fun st' => st' = AcceptorState.without { st with input := input } i)
      (resume frame) (fun _ => ChangedAt st ⟨.resume i, input⟩) (ChangedAt st ⟨.resume i, input⟩)) :
    Makes st ⟨.resume i, input⟩ (resumeTask i) := by
  refine .get_bind ?_
  rintro _ rfl
  dsimp only
  rw [hf]
  refine .bind (Q := fun _ st' => st' = AcceptorState.without { st with input := input } i)
    (.modify ?_) fun _ => h
  rintro _ rfl
  rfl

/-- The life of sessions after task `i` has been taken. -/
theorem lifecycle_resumed {st : AcceptorState} {i : ℕ} {frame : Frame} (input : Input)
    (hf : st.tasks[i]? = some frame) :
    (AcceptorState.without { st with input := input } i).lifecycle =
      st.lifecycle.taken frame.pending := by
  have hf' : (AcceptorState.tasks { st with input := input })[i]? = some frame := hf
  rw [lifecycle_without hf']
  rfl

/-- A resumed task that keeps the life of sessions. -/
theorem makes_resume_keeps {st : AcceptorState} {i : ℕ} {input : Input} {frame : Frame}
    (hf : st.tasks[i]? = some frame) (hp : frame.pending = none)
    (hn : ∀ c rest, frame ≠ .nextMessage c rest) (hx : Keeps (resume frame)) :
    Makes st ⟨.resume i, input⟩ (resumeTask i) := by
  have hincoming : st.incoming (.resume i) = none := by
    unfold AcceptorState.incoming
    dsimp only
    rw [hf]
    cases frame with
    | nextMessage c rest => exact absurd rfl (hn c rest)
    | _ => rfl
  have hlife : (AcceptorState.without { st with input := input } i).lifecycle = st.lifecycle := by
    rw [lifecycle_resumed input hf, hp]
    rfl
  refine makes_resumeTask hf (triple_at ?_)
  rw [hlife]
  exact hx.triple.conseq (fun _ => id) (fun _ _ hst => ⟨_, .kept hincoming, hst⟩)
    fun _ hst => ⟨_, .kept hincoming, hst⟩

theorem triple_resume_validated {st : AcceptorState} {i c : ℕ} {m : Message}
    {rest : List Message} (input : Input) (hf : st.tasks[i]? = some (.validated c m rest .valid)) :
    Triple (fun st' => st' = AcceptorState.without { st with input := input } i)
      (resume (.validated c m rest .valid)) (fun _ => ChangedAt st ⟨.resume i, input⟩)
      (ChangedAt st ⟨.resume i, input⟩) := by
  refine .bind (triple_createNewSession _ c m) fun s => ?_
  by_cases hs : s = st.nextSession
  · subst s
    rintro st' ⟨_, k', hk', hst'⟩
    refine ((triple_suspend rfl).conseq (fun _ => id) (fun _ _ h => ?_) fun _ => id) st' hst'
    refine ⟨_, .created hf ?_, h⟩
    unfold Created at hk' ⊢
    rwa [lifecycle_resumed input hf] at hk'
  · rintro st' ⟨hs', _⟩
    exact absurd hs' hs

theorem triple_resume_nextMessage {st : AcceptorState} {i c : ℕ} {rest : List Message}
    (input : Input) (hf : st.tasks[i]? = some (.nextMessage c rest)) :
    Triple (fun st' => st' = AcceptorState.without { st with input := input } i)
      (resume (.nextMessage c rest)) (fun _ => ChangedAt st ⟨.resume i, input⟩)
      (ChangedAt st ⟨.resume i, input⟩) := by
  have hincoming : st.incoming (.resume i) = some (c, rest) := by
    unfold AcceptorState.incoming
    dsimp only
    rw [hf]
  refine triple_at ?_
  rw [lifecycle_resumed input hf]
  exact makes_processMessages (e := ⟨.resume i, input⟩) hincoming

theorem triple_resume_created {st : AcceptorState} {i c s : ℕ} {m : Message}
    {rest : List Message} (input : Input) (hf : st.tasks[i]? = some (.created c s m rest)) :
    Triple (fun st' => st' = AcceptorState.without { st with input := input } i)
      (resume (.created c s m rest)) (fun _ => ChangedAt st ⟨.resume i, input⟩)
      (ChangedAt st ⟨.resume i, input⟩) := by
  have hincoming : st.incoming (.resume i) = none := by
    unfold AcceptorState.incoming
    dsimp only
    rw [hf]
  have hk : (st.lifecycle.resume (.starting c s)).suspend (.starting c s) = st.lifecycle := by
    unfold Lifecycle.resume Lifecycle.suspend
    dsimp only
    rw [Multiset.cons_erase (mem_pending_of_task hf rfl)]
  refine triple_at ?_
  rw [lifecycle_resumed input hf]
  have hnoThrow : NoThrow (setupSessionHandlers s) :=
    .get_bind fun _ => .forEach _ fun _ => .modify _
  refine .bind (hnoThrow.triple (keeps_setupSessionHandlers s).triple) fun _ => ?_
  refine (triple_suspend rfl).conseq (fun _ => id) (fun _ _ h => ?_) fun _ => id
  rw [Frame.pending, Lifecycle.taken, hk] at h
  exact ⟨_, .kept hincoming, h⟩

theorem triple_setupDisconnectHandler {E : AcceptorState → Prop} (c s : ℕ) :
    Triple (IsAt k) (setupDisconnectHandler c s) (fun _ => IsAt (k.listen c (.session s))) E := by
  refine triple_modify (fun k => k.listen c (.session s)) (fun st => ?_) fun _ hk => hk.listen c _
  have hlisteners := Function.comp_update Connection.closeListeners st.sockets c
    { st.sockets c with closeListeners := (st.sockets c).closeListeners ++ [.session s] }
  unfold AcceptorState.lifecycle Lifecycle.listen
  simp only [Lifecycle.mk.injEq, true_and, and_true]
  exact ⟨proj_update (g := Connection.closed) rfl, hlisteners⟩

theorem triple_resume_handlersSet {st : AcceptorState} {i c s : ℕ} {m : Message}
    {rest : List Message} (input : Input) (hf : st.tasks[i]? = some (.handlersSet c s m rest)) :
    Triple (fun st' => st' = AcceptorState.without { st with input := input } i)
      (resume (.handlersSet c s m rest)) (fun _ => ChangedAt st ⟨.resume i, input⟩)
      (ChangedAt st ⟨.resume i, input⟩) := by
  refine triple_at ?_
  rw [lifecycle_resumed input hf]
  refine .bind (triple_setupDisconnectHandler c s) fun _ => ?_
  have hk : ∀ st', HandledAt s m
      ((st.lifecycle.resume (.starting c s)).listen c (.session s)) st' →
      ChangedAt st ⟨.resume i, input⟩ st' := by
    rintro st' ⟨k', hk', hst'⟩
    exact ⟨k', .started hf hk', hst'⟩
  exact (triple_handleMessage _ s m).conseq (fun _ => id) (fun _ => hk) hk

theorem triple_settleLogout {E : AcceptorState → Prop} (caller : LogoutCaller)
    (result : Except JSError Unit) :
    Triple (IsAt k) (settleLogout caller result) (fun _ => IsAt (k.settled caller)) E := by
  cases caller with
  | user => exact .pure fun _ => id
  | registration s dropped => exact triple_suspend rfl
  | closeAll n =>
    refine NoThrow.triple ?_ (keeps_settleLogout rfl result).triple
    refine .get_bind fun st => ?_
    split
    · exact .pure ()
    · exact .bind (.modify _) fun _ => .ite (.modify _) (.pure ())

theorem triple_resume_logoutSent {st : AcceptorState} {i s : ℕ} {caller : LogoutCaller}
    {error : Option JSError} (input : Input)
    (hf : st.tasks[i]? = some (.logoutSent s caller error)) :
    Triple (fun st' => st' = AcceptorState.without { st with input := input } i)
      (resume (.logoutSent s caller error)) (fun _ => ChangedAt st ⟨.resume i, input⟩)
      (ChangedAt st ⟨.resume i, input⟩) := by
  have hat : ∀ st', st' = AcceptorState.without { st with input := input } i →
      IsAt (st.lifecycle.taken (caller.pending s)) st' ∧ st'.input = input := by
    rintro _ rfl
    have hlife := lifecycle_resumed input hf
    exact ⟨Lowered.of_eq hlife, rfl⟩
  have hsettle : ∀ {k' : Lifecycle} (result : Except JSError Unit),
      TearDowns [s] (st.lifecycle.taken (caller.pending s)) k' →
      (k'.timer s = false ∨ input.thrown.headD none ≠ none) →
      Triple (IsAt k') (settleLogout caller result) (fun _ => ChangedAt st ⟨.resume i, input⟩)
        (ChangedAt st ⟨.resume i, input⟩) := fun result hk' hdone =>
    (triple_settleLogout caller result).conseq (fun _ => id)
      (fun _ _ h => ⟨_, .loggedOut hf hk' hdone, h⟩) fun _ => id
  refine .bind ((triple_afterLogoutSent input s).conseq hat (fun _ _ => id) fun _ => id).attempt
    fun result => ?_
  cases result with
  | ok _ =>
    rintro st' ⟨k', hk', hst'⟩
    exact hsettle _ (.next hk' .stop) (Or.inl hk'.timer_eq_false) st' hst'
  | error _ =>
    rintro st' (⟨_, k', hk', hst'⟩ | ⟨hst', hthrown⟩)
    · exact hsettle _ (.next hk' .stop) (Or.inl hk'.timer_eq_false) st' hst'
    · exact hsettle _ .stop (Or.inr hthrown) st' hst'

theorem triple_resume_registration {st : AcceptorState} {i s : ℕ} {dropped : Bool} (input : Input)
    (hf : st.tasks[i]? = some (.registration s dropped)) :
    Triple (fun st' => st' = AcceptorState.without { st with input := input } i)
      (resume (.registration s dropped)) (fun _ => ChangedAt st ⟨.resume i, input⟩)
      (ChangedAt st ⟨.resume i, input⟩) := by
  refine (triple_finishRegistration _ s dropped).conseq (fun _ => id) ?_ fun _ => id
  rintro _ st' ⟨k', hk', hst'⟩
  rw [lifecycle_resumed input hf] at hk'
  exact ⟨k', .registered hf hk', hst'⟩

theorem triple_resume_allClosed {st : AcceptorState} {i k : ℕ} {stopping : Bool} (input : Input)
    (hf : st.tasks[i]? = some (.allClosed k stopping)) :
    Triple (fun st' => st' = AcceptorState.without { st with input := input } i)
      (resume (.allClosed k stopping)) (fun _ => ChangedAt st ⟨.resume i, input⟩)
      (ChangedAt st ⟨.resume i, input⟩) := by
  refine triple_at ?_
  rw [lifecycle_resumed input hf]
  have hkeeps : Keeps (if stopping then suspend .closeAllSockets else pure () : AcceptorM Unit) :=
    .ite (keeps_suspend rfl) (.pure ())
  refine .bind (triple_modify Lifecycle.clear (fun _ => rfl) ?_) fun _ =>
    hkeeps.triple.conseq (fun _ => id) (fun _ _ h => ⟨_, .cleared hf, h⟩)
      fun _ h => ⟨_, .cleared hf, h⟩
  rintro _ ⟨l, hl, rfl⟩
  exact ⟨l, hl, rfl⟩

/-- Going on with a task. -/
theorem makes_resume (st : AcceptorState) (i : ℕ) (input : Input) :
    Makes st ⟨.resume i, input⟩ (resumeTask i) := by
  cases hf : st.tasks[i]? with
  | none =>
    have hincoming : st.incoming (.resume i) = none := by
      unfold AcceptorState.incoming
      dsimp only
      rw [hf]
    refine .get_bind ?_
    rintro _ rfl
    dsimp only
    rw [hf]
    exact makes_of_keeps (e := ⟨.resume i, input⟩) (.pure ()) hincoming
  | some frame =>
    cases frame with
    | nextMessage c rest => exact makes_resumeTask hf (triple_resume_nextMessage input hf)
    | created c s m rest => exact makes_resumeTask hf (triple_resume_created input hf)
    | handlersSet c s m rest => exact makes_resumeTask hf (triple_resume_handlersSet input hf)
    | logoutSent s caller error => exact makes_resumeTask hf (triple_resume_logoutSent input hf)
    | registration s dropped => exact makes_resumeTask hf (triple_resume_registration input hf)
    | allClosed k stopping => exact makes_resumeTask hf (triple_resume_allClosed input hf)
    | validated c m rest verdict =>
      cases verdict with
      | valid => exact makes_resumeTask hf (triple_resume_validated input hf)
      | invalid reason =>
        exact makes_resume_keeps hf rfl (by simp) (keeps_refuseLogon c m rest _)
      | thrown e => exact makes_resume_keeps hf rfl (by simp) (keeps_refuseThrownLogon c m rest e)
    | validateCredentials c m rest =>
      exact makes_resume_keeps hf rfl (by simp) (keeps_afterValidateCredentials c m rest)
    | getAllowedSenderCompIds c m rest =>
      exact makes_resume_keeps hf rfl (by simp) (keeps_afterGetAllowedSenderCompIds c m rest)
    | closeDelay c rest =>
      exact makes_resume_keeps hf rfl (by simp)
        (.bind (keeps_destroy c) fun _ => keeps_suspend rfl)
    | logonResponse origin s m error =>
      exact makes_resume_keeps hf rfl (by simp) (keeps_resume_logonResponse origin s m error)
    | testRequestReply origin s m error =>
      exact makes_resume_keeps hf rfl (by simp) (keeps_resume_testRequestReply origin s m error)
    | messageHandlers origin s m =>
      exact makes_resume_keeps hf rfl (by simp) (keeps_runMessageHandlers origin s m 0)
    | handlerPending origin s m next =>
      exact makes_resume_keeps hf rfl (by simp) (keeps_resume_handlerPending origin s m next)
    | closeAllSockets => exact makes_resume_keeps hf rfl (by simp) keeps_closeAllSockets

/-! ## The close event -/

theorem triple_setClosing {E : AcceptorState → Prop}
    (closing : Option (ℕ × List CloseListener)) :
    Triple (IsAt k) (modify fun st => { st with closing := closing } : AcceptorM Unit)
      (fun _ => IsAt (k.setClosing closing)) E :=
  triple_modify (fun k => k.setClosing closing) (fun _ => rfl) fun _ hk => hk.setClosing closing

/-- A session's own listener only fails when user code throws. -/
theorem triple_callCloseListener_calm (c s : ℕ) :
    Triple Calm (callCloseListener c (.session s)) (fun _ => Calm) fun _ => False :=
  .bind (triple_handleDisconnect_calm s) fun _ => triple_removeId_calm s

theorem triple_callAcceptorListener {E : AcceptorState → Prop} (c : ℕ) :
    Triple (IsAt k) (callCloseListener c .acceptor)
      (fun _ => Ended (k.registry.values.filter fun s => k.socket s = c) k) E := by
  refine .bind (triple_modify (fun k => k) (fun _ => rfl) fun _ => id) fun _ =>
    triple_get fun st hst => ?_
  rw [hst.registry]
  refine .bind (triple_cleanupSessions c k.registry.values).attempt fun result => .pure ?_
  cases result with
  | ok _ => exact fun _ => id
  | error _ => exact fun _ => id

theorem triple_callSessionListener (c s : ℕ) :
    Triple (IsAt k) (callCloseListener c (.session s)) (fun _ => EndedOne s k true)
      (fun st => ∃ b, EndedOne s k b st) :=
  triple_tearDown s (triple_removeId_endedOne s)

theorem makes_callNextListener (st : AcceptorState) (input : Input) :
    Makes st ⟨.nextListener, input⟩ callNextListener := by
  refine .get_bind ?_
  rintro _ rfl
  split
  · exact makes_of_keeps (e := ⟨.nextListener, input⟩) (.pure ()) rfl
  · next c h =>
    refine makes_of_triple ((triple_setClosing none).conseq (fun _ => id) ?_ fun _ => id)
    exact fun _ _ hst => ⟨_, .ended h, hst⟩
  · next c listener ls h =>
    have hclosing : Triple (fun st' => st' = { st with input := input })
        (modify fun st => { st with closing := some (c, ls) } : AcceptorM Unit)
        (fun _ st' => IsAt (st.lifecycle.setClosing (some (c, ls))) st' ∧ st'.input = input)
        (ChangedAt st ⟨.nextListener, input⟩) := .modify <| by
      rintro _ rfl
      exact ⟨Lowered.refl _, rfl⟩
    refine .bind hclosing fun _ => ?_
    cases listener with
    | acceptor =>
      refine .conseq (P := IsAt (st.lifecycle.setClosing (some (c, ls)))) ?_ (fun _ h => h.1)
        (fun _ _ => id) fun _ => id
      refine .bind (triple_callAcceptorListener c (E := fun _ => False)).attempt fun result => ?_
      cases result with
      | ok _ => exact .pure fun _ ⟨k', hk', hst⟩ => ⟨k', .cleaned h hk', hst⟩
      | error _ => exact fun _ => False.elim
    | session s =>
      have hcall := triple_thrown input (triple_callSessionListener c s)
        (triple_callCloseListener_calm c s) (P := IsAt (st.lifecycle.setClosing (some (c, ls))))
      refine .bind hcall.attempt fun result => ?_
      cases result with
      | ok _ => exact .pure fun _ ⟨k', hk', hst⟩ => ⟨k', .listened h hk', hst⟩
      | error e =>
        rintro st' ⟨⟨b, k', hk', hst⟩, hthrown⟩
        refine Triple.bind (NoThrow.triple (.modify _) (keeps_observe rfl).triple) (fun _ =>
          (triple_setClosing none).conseq (fun _ => id) ?_ fun _ => id) st' hst
        exact fun _ _ hst => ⟨_, .threw h hk' hthrown, hst⟩

/-! ## All events -/

theorem makes_handleNewConnection (st : AcceptorState) (a : JSString) (input : Input) :
    Makes st ⟨.connect a, input⟩ (handleNewConnection a) := by
  refine .get_bind ?_
  rintro _ rfl
  have hsecond : Triple (IsAt (st.lifecycle.listen st.nextSocket .acceptor))
      (modify fun st' => { st' with
        nextSocket := st'.nextSocket + 1
        activeSockets := st'.activeSockets.set a st'.nextSocket } : AcceptorM Unit)
      (fun _ => ChangedAt st ⟨.connect a, input⟩) (ChangedAt st ⟨.connect a, input⟩) := by
    refine .modify fun st' hst' => ⟨_, .connected, ?_⟩
    exact hst'
  refine makes_of_triple (e := ⟨.connect a, input⟩) (.bind (triple_modify
    (fun k => k.listen st.nextSocket .acceptor) (fun st' => ?_) fun _ hk => hk.listen _ _)
    fun _ => hsecond)
  have hlisteners := Function.comp_update Connection.closeListeners st'.sockets st.nextSocket
    (Connection.setupSocketEventHandlers
      { st'.sockets st.nextSocket with remoteAddress := a })
  unfold AcceptorState.lifecycle Lifecycle.listen
  simp only [Lifecycle.mk.injEq, true_and, and_true]
  exact ⟨proj_update (g := Connection.closed) rfl, hlisteners⟩

theorem makes_beginClose (st : AcceptorState) (c : ℕ) (input : Input) :
    Makes st ⟨.close c, input⟩ (beginClose c) := by
  refine .bind (Q := fun _ st' => st' = { st with
    input := input
    sockets := Function.update st.sockets c { st.sockets c with closed := true } }) (.modify ?_)
    fun _ => .modify ?_
  · rintro _ rfl
    rfl
  · rintro _ rfl
    refine ⟨_, .closed, Lowered.of_eq ?_⟩
    have hclosed := Function.comp_update Connection.closed st.sockets c
      { st.sockets c with closed := true }
    unfold AcceptorState.lifecycle Lifecycle.close
    simp only [Lifecycle.mk.injEq, true_and, and_true, Function.update_self]
    exact ⟨hclosed, proj_update (g := Connection.closeListeners) rfl⟩

theorem makes_newSession (st : AcceptorState) (config : SessionConfig) (c : ℕ) (input : Input) :
    Makes st ⟨.newSession config c, input⟩ (discard (newSession config c)) := by
  refine .bind (triple_newSession { st with input := input } config c) fun _ => .pure ?_
  rintro _ ⟨_, rfl⟩
  refine ⟨_, .created', ?_⟩
  rw [IsAt, lifecycle_withSession]
  exact Lowered.refl _

theorem makes_createSession (st : AcceptorState) (config : SessionConfig) (c : ℕ) (input : Input) :
    Makes st ⟨.createSession config c, input⟩ (createSession config c) := by
  refine .get_bind ?_
  rintro _ rfl
  split
  · exact makes_of_keeps (e := ⟨.createSession config c, input⟩) (.throw _) rfl
  · next hlimit =>
    refine .bind (triple_newSession { st with input := input } config c) fun s => ?_
    rintro _ ⟨rfl, rfl⟩
    refine ((triple_setSession st.nextSession).conseq (fun _ => id) ?_ fun _ => id) _
      (Lowered.refl _)
    rw [lifecycle_withSession]
    exact fun _ _ hst => ⟨_, .stored (Bool.eq_false_iff.mpr hlimit), hst⟩

/-- Every event makes one of the listed changes. -/
theorem makes_perform (st : AcceptorState) (e : Event) (input : Input) :
    Makes st ⟨e, input⟩ (perform e) := by
  cases e with
  | connect a => exact makes_handleNewConnection st a input
  | data c data => exact makes_receive st c data input
  | socketError c e => exact makes_of_keeps (keeps_socketError c e) rfl
  | close c => exact makes_beginClose st c input
  | nextListener => exact makes_callNextListener st input
  | resume i => exact makes_resume st i input
  | heartbeat s => exact makes_of_keeps (keeps_heartbeat s) rfl
  | reject s e => exact makes_of_keeps (keeps_observe rfl) rfl
  | send s m => exact makes_of_keeps (.discard (keeps_startSend s m)) rfl
  | logout s reason => exact makes_of_keeps (keeps_logout rfl reason) rfl
  | join s roomId => exact makes_of_keeps (.modify fun _ => rfl) rfl
  | leave s roomId => exact makes_of_keeps (.modify fun _ => rfl) rfl
  | handleMessage s m =>
    have hk : ∀ st', HandledAt s m st.lifecycle st' →
        ChangedAt st ⟨.handleMessage s m, input⟩ st' := by
      rintro st' ⟨k', hk', hst'⟩
      exact ⟨k', .handled hk', hst'⟩
    exact makes_of_triple
      ((triple_handleMessage .user s m).conseq (fun _ => id) (fun _ => hk) hk)
  | registerHandlers s metadata =>
    exact makes_of_keeps (keeps_registerSessionHandlers s metadata) rfl
  | stop => exact makes_of_keeps (keeps_closeAll true) rfl
  | closeAll => exact makes_of_keeps (keeps_closeAll false) rfl
  | newSession config c => exact makes_newSession st config c input
  | createSession config c => exact makes_createSession st config c input
  | registerSession s =>
    refine (triple_registerSession { st with input := input } s false).conseq (fun _ => id) ?_
      fun _ => id
    exact fun _ _ ⟨k', hk', hst⟩ => ⟨k', .registering hk', hst⟩
  | removeSession sessionId =>
    exact makes_of_triple ((triple_removeSession sessionId).conseq (fun _ => id)
      (fun _ _ hst => ⟨_, .removed, hst⟩) fun _ => id)

/-- The life of sessions after a step is one of the listed changes, except that some
sessions may have left LOGGED_ON. -/
theorem step_change {st st' : AcceptorState} {e : Step} (h : st.step e = some st') :
    ChangedAt st e st' := by
  unfold AcceptorState.step at h
  split at h
  · obtain rfl := Option.some.inj h
    exact Triple.after (makes_perform st e.event e.input) rfl
  · cases h

/-- A step only happens when its event can. -/
theorem step_enabled {st st' : AcceptorState} {e : Step} (h : st.step e = some st') :
    st.enabled e.event = true := by
  unfold AcceptorState.step at h
  split at h
  · assumption
  · cases h

/-- Nothing but a `close` event goes on while one is under way. -/
theorem closing_eq_none {st : AcceptorState} {event : Event} (h : st.enabled event = true)
    (hne : event ≠ .nextListener) : st.closing = none := by
  cases event with
  | nextListener => exact absurd rfl hne
  | _ => exact Option.isNone_iff_eq_none.mp (Bool.and_eq_true_iff.mp h).1

end NestQuickfix.Acceptor
