import NestQuickfix.Acceptor.Tasks

/-!
# Applications

The acceptor and the initiators of an application have session managers of their own, but all
their sessions join rooms of one room manager. An initiator never registers its session.
-/

namespace NestQuickfix.Acceptor

open Lib Lib.Exec

/-! ## Session managers that share their rooms -/

/-- Whose session manager it is. -/
inductive Role where
  | acceptor
  | initiator
  deriving DecidableEq

/-- Whether an event can happen to a session manager. An initiator keeps its manager to
itself: it constructs its session, and only the methods of the session are called. -/
def Role.allows : Role → Event → Bool
  | .acceptor, _ => true
  | .initiator, .newSession .. | .initiator, .resume _ | .initiator, .heartbeat _
  | .initiator, .reject .. | .initiator, .send .. | .initiator, .logout .. | .initiator, .join ..
  | .initiator, .leave .. | .initiator, .handleMessage .. | .initiator, .registerHandlers .. => true
  | .initiator, _ => false

/-- The session managers of an application, with their sessions, and its room manager. -/
structure Application (ι : Type) where
  role : ι → Role
  managers : ι → AcceptorState
  rooms : RoomManager

variable {ι : Type}

/-- An application that has been started. -/
def Application.new (role : ι → Role) (config : ι → AcceptorConfig) : Application ι where
  role := role
  managers i := .new (config i)
  rooms := .empty

/-- A session manager with the rooms its sessions see. -/
def Application.manager (app : Application ι) (i : ι) : AcceptorState :=
  { app.managers i with rooms := app.rooms }

/-- Whether an event can happen to a session manager now. -/
def Application.enabled (app : Application ι) (e : ι × Step) : Bool :=
  (app.role e.1).allows e.2.event && (app.manager e.1).enabled e.2.event

variable [DecidableEq ι]

/-- One event of one session manager. -/
def Application.step (app : Application ι) (e : ι × Step) : Option (Application ι) :=
  if (app.role e.1).allows e.2.event then
    ((app.manager e.1).step e.2).map fun st =>
      { app with managers := Function.update app.managers e.1 st, rooms := st.rooms }
  else none

/-- The session managers of an application as one system. -/
def application : System (Application ι) (ι × Step) where
  init app := ∃ role config, app = .new role config
  step := Application.step

variable {guard : Application ι → ι × Step → Prop} {app app' : Application ι} {e : ι × Step}

/-- A step of an application is one of a session manager, with the rooms of all. -/
theorem manager_step (h : app.step e = some app') : app'.role = app.role ∧ app.enabled e = true ∧
    ∃ st, (app.manager e.1).step e.2 = some st ∧
      app'.managers = Function.update app.managers e.1 st ∧ app'.rooms = st.rooms := by
  unfold Application.step at h
  split at h
  · next hallows =>
    obtain ⟨st, hstep, rfl⟩ := Option.map_eq_some_iff.mp h
    exact ⟨rfl, Bool.and_eq_true_iff.mpr ⟨hallows, step_enabled hstep⟩, st, hstep, rfl, rfl⟩
  · cases h

theorem exists_application_step (h : app.enabled e = true) : ∃ app', app.step e = some app' := by
  obtain ⟨hallows, henabled⟩ := Bool.and_eq_true_iff.mp h
  unfold Application.step AcceptorState.step
  rw [if_pos hallows, if_pos henabled]
  exact ⟨_, rfl⟩

/-! ## Initiators -/

/-- A task of a call that a user has made to a method of a session. -/
def Frame.called : Frame → Bool
  | .logonResponse .user _ _ _ | .testRequestReply .user _ _ _ | .messageHandlers .user _ _
  | .handlerPending .user _ _ _ | .logoutSent _ .user _ => true
  | _ => false

/-- The manager of an initiator knows no session, and its tasks are calls of users. -/
structure Unregistered (st : AcceptorState) : Prop where
  registry : st.registry = .empty
  tasks : ∀ frame ∈ st.tasks, frame.called = true

section Initiators

variable {st st' : AcceptorState} {e : Step} {event : Event} {a : Act} {frame : Frame} {s : ℕ}
  {origin : Origin} {m : Message}

namespace Unregistered

theorem called_of_goesOn (h : Unregistered st) (hgoes : st.GoesOn event frame) :
    frame.called = true := by
  obtain ⟨i, _, hf⟩ := hgoes
  exact h.tasks frame (List.mem_of_getElem? hf)

theorem incoming_eq_none (h : Unregistered st) (hallows : Role.initiator.allows event = true) :
    st.incoming event = none := by
  cases event with
  | data c data => cases hallows
  | resume i =>
    unfold AcceptorState.incoming
    dsimp only
    split
    · next hf => cases h.tasks _ (List.mem_of_getElem? hf)
    · rfl
  | _ => rfl

/-- A session of an initiator only handles messages that users pass to it. -/
theorem user_of_serves (h : Unregistered st) (hallows : Role.initiator.allows event = true)
    (hserves : st.Serves event origin s m) : origin = .user := by
  rcases hserves with hhandles | ⟨frame, hgoes, hserves⟩
  · cases hhandles with
    | routed hin =>
      rw [h.incoming_eq_none hallows] at hin
      cases hin
    | started hf => cases h.tasks _ (List.mem_of_getElem? hf)
    | called => rfl
  · have hcalled := h.called_of_goesOn hgoes
    cases frame with
    | logonResponse origin' | testRequestReply origin' | messageHandlers origin'
    | handlerPending origin' =>
      cases hserves
      cases origin with
      | user => rfl
      | chunk => cases hcalled
    | _ => cases hserves

theorem not_processes (h : Unregistered st) (hallows : Role.initiator.allows event = true) {c : ℕ} :
    ¬ st.Processes event c := by
  rintro (⟨ms, hin⟩ | ⟨frame, hgoes, hloop⟩)
  · rw [h.incoming_eq_none hallows] at hin
    cases hin
  · have hcalled := h.called_of_goesOn hgoes
    cases frame with
    | logonResponse origin | testRequestReply origin | messageHandlers origin
    | handlerPending origin =>
      cases origin with
      | user => cases hloop
      | chunk => cases hcalled
    | _ => first | cases hcalled | cases hloop

theorem not_replaces (h : Unregistered st) {old : ℕ} {dropped : Bool} :
    ¬ st.Replaces event s old dropped := by
  intro hreplaces
  cases hreplaces with
  | called hget =>
    rw [h.registry] at hget
    cases hget
  | created _ hget =>
    rw [h.registry] at hget
    cases hget

theorem user_of_logsOut (h : Unregistered st) (hallows : Role.initiator.allows event = true)
    {caller : LogoutCaller} (hlogsOut : st.LogsOut event s caller) : caller = .user := by
  cases hlogsOut with
  | called => rfl
  | replaced hreplaces => exact absurd hreplaces h.not_replaces
  | stopped => cases hallows
  | closed => cases hallows

/-- All tasks that an initiator's events cause are calls of users. -/
theorem called_of_causedBy (h : Unregistered st) (hallows : Role.initiator.allows event = true)
    (hframe : frame.CausedBy st event) : frame.called = true := by
  cases frame with
  | nextMessage c rest => exact absurd hframe (h.not_processes hallows)
  | closeDelay c rest => exact absurd hframe (h.not_processes hallows)
  | validateCredentials c m rest =>
    obtain ⟨hin, _⟩ := hframe
    rw [h.incoming_eq_none hallows] at hin
    cases hin
  | getAllowedSenderCompIds c m rest => cases h.called_of_goesOn hframe.1
  | validated c m rest verdict => exact absurd hframe.1 (h.not_processes hallows)
  | created c s m rest => cases h.called_of_goesOn hframe.2
  | handlersSet c s m rest => cases h.called_of_goesOn hframe
  | logonResponse origin s m error =>
    obtain rfl := h.user_of_serves hallows (Or.inl hframe.1)
    rfl
  | testRequestReply origin s m error =>
    obtain rfl := h.user_of_serves hallows (Or.inl hframe)
    rfl
  | messageHandlers origin s m =>
    obtain rfl := h.user_of_serves hallows hframe
    rfl
  | handlerPending origin s m next =>
    obtain rfl := h.user_of_serves hallows hframe
    rfl
  | logoutSent s caller error =>
    obtain rfl := h.user_of_logsOut hallows hframe.1
    rfl
  | registration s dropped =>
    rcases hframe with ⟨old, hreplaces⟩ | ⟨old, error, hgoes⟩
    · exact absurd hreplaces h.not_replaces
    · cases h.called_of_goesOn hgoes
  | allClosed k stopping => exact hframe.elim
  | closeAllSockets =>
    obtain ⟨k, stopping, hgoes⟩ := hframe
    cases h.called_of_goesOn hgoes

theorem mayStore_eq_none (h : Unregistered st) (hallows : Role.initiator.allows event = true) :
    st.mayStore event = none := by
  cases event with
  | registerSession s => cases hallows
  | createSession config c => cases hallows
  | resume i =>
    unfold AcceptorState.mayStore
    dsimp only
    split
    · next hf => cases h.tasks _ (List.mem_of_getElem? hf)
    · next hf => cases h.tasks _ (List.mem_of_getElem? hf)
    · rfl
  | _ => rfl

theorem registry_act (hst : Unregistered st) (h : Unregistered st')
    (hallows : Role.initiator.allows event = true) (ha : a.CausedBy st event) :
    (a.apply st').registry = .empty := by
  have hwithout : ∀ id, (st'.withoutEntry id).registry = .empty := by
    intro id
    have hhas : st'.registry.has id = false := by rw [h.registry]; rfl
    rw [AcceptorState.withoutEntry, hhas]
    exact h.registry
  cases a with
  | register x =>
    have hstore : st.mayStore event = some x := ha
    rw [hst.mayStore_eq_none hallows] at hstore
    cases hstore
  | remove id => exact hwithout id
  | removeId x =>
    simp only [Act.apply, AcceptorState.withoutEnded]
    split
    · exact h.registry
    · exact hwithout _
  | clear => rfl
  | _ =>
    rw [registry_apply rfl]
    exact h.registry

/-- No call of `closeAll` comes to its end in an initiator. -/
theorem adds_eq_nil (hst : Unregistered st) (hallows : Role.initiator.allows event = true)
    (ha : a.CausedBy st event) (hsuspend : ∀ frame, a ≠ .suspend frame) : a.adds st' = [] := by
  cases a with
  | suspend frame => exact absurd rfl (hsuspend frame)
  | callCloseAll stopping =>
    have hevent : event = if stopping then .stop else .closeAll := ha
    subst hevent
    cases stopping <;> cases hallows
  | settleCloseAll k result =>
    rcases ha with ⟨x, hlogsOut, _⟩ | ⟨x, error, hgoes, _⟩
    · cases hst.user_of_logsOut hallows hlogsOut
    · cases hst.called_of_goesOn hgoes
  | _ => rfl

theorem tasks_act (hst : Unregistered st) (h : Unregistered st')
    (hallows : Role.initiator.allows event = true) (ha : a.CausedBy st event) :
    ∀ frame ∈ (a.apply st').tasks, frame.called = true := by
  intro frame hframe
  by_cases htake : ∃ i, a = .take i
  · obtain ⟨i, rfl⟩ := htake
    exact h.tasks frame (List.mem_of_mem_eraseIdx hframe)
  · rw [tasks_apply (not_exists.mp htake)] at hframe
    rcases List.mem_append.mp hframe with hframe | hframe
    · exact h.tasks frame hframe
    · by_cases hsuspend : ∃ frame', a = .suspend frame'
      · obtain ⟨frame', rfl⟩ := hsuspend
        obtain rfl := List.mem_singleton.mp hframe
        exact hst.called_of_causedBy hallows ha
      · rw [hst.adds_eq_nil hallows ha (not_exists.mp hsuspend)] at hframe
        cases hframe

/-- A step of an initiator leaves the registry empty and adds calls of users only. -/
theorem step (h : Unregistered st) (hallows : Role.initiator.allows e.event = true)
    (hstep : st.step e = some st') : Unregistered st' := by
  have hst : Unregistered (st.meets e) := ⟨h.registry, h.tasks⟩
  exact step_keeps hstep (P := Unregistered) hst fun st1 a _ ha h1 =>
    ⟨hst.registry_act h1 hallows ha, hst.tasks_act h1 hallows ha⟩

end Unregistered

end Initiators

/-- The manager of an initiator stays empty: its session has no entry. -/
theorem unregistered_of_reached (h : application.Reached guard app) {i : ι}
    (hi : app.role i = .initiator) : Unregistered (app.managers i) := by
  induction h with
  | init hinit =>
    obtain ⟨role, config, rfl⟩ := hinit
    exact ⟨rfl, fun _ hframe => by cases hframe⟩
  | @step app app' e _ _ hstep ih =>
    obtain ⟨hrole, henabled, st, hst, hmanagers, _⟩ := manager_step hstep
    rw [hrole] at hi
    rw [hmanagers]
    by_cases hie : i = e.1
    · subst hie
      have hallows := (Bool.and_eq_true_iff.mp henabled).1
      rw [hi] at hallows
      have hown : Unregistered (app.manager e.1) := ⟨(ih hi).registry, (ih hi).tasks⟩
      rw [Function.update_self]
      exact hown.step hallows hst
    · rw [Function.update_of_ne hie]
      exact ih hi

end NestQuickfix.Acceptor
