import Mathlib.Data.Multiset.Filter
import NestQuickfix.Acceptor.WellFormed

/-!
# Registrations under way

`registerSession` waits for the logout of an old session with the same id; meanwhile its
own session is registered nowhere. What follows is about the sessions in this situation,
and about the entries that the end of a session leaves alone.
-/

namespace NestQuickfix.Acceptor

open Lib Lifecycle

/-- The session that a suspended task will register. -/
def Pending.registers : Pending → Option ℕ
  | .registering s _ => some s
  | .starting .. => none

/-- The sessions whose registrations are under way. -/
def Lifecycle.registering (k : Lifecycle) : Multiset ℕ := k.pending.filterMap Pending.registers

/-- The sessions whose registrations are under way. -/
def AcceptorState.registering (st : AcceptorState) : List ℕ :=
  (st.tasks.filterMap Frame.pending).filterMap Pending.registers

/-- The session that handles a Logon in an event. -/
def AcceptorState.logsOn (st : AcceptorState) : Event → Option ℕ
  | .handleMessage s m => if m.getField Fields.msgType = MsgType.logon then some s else none
  | .resume i =>
    match st.tasks[i]? with
    | some (.handlersSet _ s m _) =>
      if m.getField Fields.msgType = MsgType.logon then some s else none
    | _ => none
  | _ => none

/-- The session that is stored at the end of a registration that has waited. -/
def AcceptorState.stores (st : AcceptorState) : Event → Option ℕ
  | .resume i =>
    match st.tasks[i]? with
    | some (.registration s _) => some s
    | _ => none
  | _ => none

/-- The ids whose entries an event removes without ending their sessions. -/
def AcceptorState.clears (st : AcceptorState) : Event → List JSString
  | .removeSession sessionId => [sessionId]
  | .resume i =>
    match st.tasks[i]? with
    | some (.allClosed ..) => st.registry.keys
    | _ => []
  | _ => []

variable {k k' : Lifecycle} {s x : ℕ}

/-! ## Pending registrations -/

theorem mem_registering : x ∈ k.registering ↔ ∃ old, .registering x old ∈ k.pending := by
  rw [Lifecycle.registering, Multiset.mem_filterMap]
  constructor
  · rintro ⟨p, hp, hx⟩
    cases p with
    | starting c s => cases hx
    | registering s old =>
      obtain rfl := Option.some.inj hx
      exact ⟨old, hp⟩
  · rintro ⟨old, hold⟩
    exact ⟨_, hold, rfl⟩

theorem mem_registering_state {st : AcceptorState} :
    x ∈ st.lifecycle.registering ↔ x ∈ st.registering := Iff.rfl

@[simp] theorem registering_suspend_starting (c : ℕ) :
    (k.suspend (.starting c s)).registering = k.registering :=
  Multiset.filterMap_cons_none _ _ rfl

@[simp] theorem registering_suspend (old : Option ℕ) :
    (k.suspend (.registering s old)).registering = s ::ₘ k.registering :=
  Multiset.filterMap_cons_some _ _ _ rfl

theorem registering_resume_starting {c : ℕ} (h : .starting c s ∈ k.pending) :
    (k.resume (.starting c s)).registering = k.registering := by
  have hcons := registering_suspend_starting (k := k.resume (.starting c s)) (s := s) c
  rw [← hcons, Lifecycle.suspend, Lifecycle.resume, Lifecycle.registering, Multiset.cons_erase h]
  rfl

theorem registering_resume {old : Option ℕ} (h : .registering s old ∈ k.pending) :
    s ::ₘ (k.resume (.registering s old)).registering = k.registering := by
  have hcons := registering_suspend (k := k.resume (.registering s old)) (s := s) old
  rw [← hcons, Lifecycle.suspend, Lifecycle.resume, Lifecycle.registering, Multiset.cons_erase h]
  rfl

/-! ## The end of a logout -/

theorem Lifecycle.TornDown.withPending {b : Bool} (h : TornDown s k b k')
    (pending : Multiset Pending) :
    TornDown s { k with pending := pending } b { k' with pending := pending } := by
  cases h with
  | handlerThrew => exact .handlerThrew
  | listenerThrew => exact .listenerThrew
  | done => exact .done

theorem Lifecycle.TearDowns.withPending {ss : List ℕ} (h : TearDowns ss k k')
    (pending : Multiset Pending) :
    TearDowns ss { k with pending := pending } { k' with pending := pending } := by
  induction h with
  | stop => exact .stop
  | next hone _ ih => exact .next (hone.withPending pending) ih

/-- A logout that has been waited for ends its session and leaves the same registrations
under way, one of them now without an old session to wait for. -/
theorem loggedOut_settled {st : AcceptorState} {i : ℕ} {caller : LogoutCaller}
    {error : Option JSError} (hf : st.tasks[i]? = some (.logoutSent s caller error))
    (hk : TearDowns [s] (st.lifecycle.taken (caller.pending s)) k') :
    ∃ k1, TearDowns [s] st.lifecycle k1 ∧
      k'.settled caller = { k1 with pending := (k'.settled caller).pending } ∧
      (k'.settled caller).registering = st.lifecycle.registering := by
  have hlife : ∀ p : Option Pending,
      { st.lifecycle.taken p with pending := st.lifecycle.pending } = st.lifecycle := by
    intro p
    rw [taken_eq]
  have hended := hk.withPending st.lifecycle.pending
  rw [hlife] at hended
  refine ⟨_, hended, settled_eq k' caller, ?_⟩
  have hpending := hk.untouched.pending
  match caller with
  | .user => exact congrArg (Multiset.filterMap Pending.registers) hpending
  | .closeAll n => exact congrArg (Multiset.filterMap Pending.registers) hpending
  | .registration r dropped =>
    rw [← registering_resume (mem_pending_of_task hf rfl)]
    refine (registering_suspend none).trans (congrArg (r ::ₘ ·) ?_)
    exact congrArg (Multiset.filterMap Pending.registers) hpending

/-! ## Entries of other sessions -/

/-- The end of sessions only removes entries. -/
theorem Lifecycle.TearDowns.get?_of {ss : List ℕ} {id : JSString} (h : TearDowns ss k k')
    (hid : k'.registry.get? id = some x) : k.registry.get? id = some x := by
  induction h with
  | stop => exact hid
  | next hone _ ih => exact hone.get?_of (ih hid)

/-- A sign of life of sessions that the end of a session clears. -/
def ClearedByEnd (live : Lifecycle → ℕ → Bool) : Prop :=
  ∀ s k b k', TornDown s k b k' → live k' = Function.update (live k) s false

theorem timer_clearedByEnd : ClearedByEnd Lifecycle.timer := fun _ _ _ _ h => h.timer

theorem loggedOn_clearedByEnd : ClearedByEnd Lifecycle.loggedOn := fun _ _ _ _ h => h.loggedOn

variable {live : Lifecycle → ℕ → Bool}

theorem live_of_tearDowns (hlive : ClearedByEnd live) {ss : List ℕ} (h : TearDowns ss k k')
    (hx : live k' x = true) : live k x = true := by
  induction h with
  | stop => exact hx
  | @next s ss b k k1 k2 hone _ ih =>
    have hone' := ih hx
    rw [hlive _ _ _ _ hone] at hone'
    by_cases hxs : x = s
    · subst x
      simp at hone'
    · rwa [Function.update_of_ne hxs] at hone'

/-- The end of sessions keeps the entries of other live ones, if no live session stands
under the id of an ended one. -/
theorem get?_tearDowns (hlive : ClearedByEnd live) {ss : List ℕ} {id : JSString}
    (h : TearDowns ss k k')
    (hss : ∀ s ∈ ss, ∀ y, k.registry.get? (k.sessionId s) = some y → y ≠ s → live k y = false)
    (hx : live k' x = true) (hid : k.registry.get? id = some x) :
    k'.registry.get? id = some x := by
  induction h with
  | stop => exact hid
  | @next s ss b k k1 k2 hone hrest ih =>
    have hone1 := live_of_tearDowns hlive hrest hx
    have hxs : x ≠ s := by
      rintro rfl
      rw [hlive _ _ _ _ hone, Function.update_self] at hone1
      cases hone1
    have hxk : live k x = true := by
      rwa [hlive _ _ _ _ hone, Function.update_of_ne hxs] at hone1
    refine ih (fun r hr y hy hyr => ?_) hx ?_
    · rw [hone.untouched.sessionId] at hy
      have hyk := hss r (List.mem_cons_of_mem s hr) y (hone.get?_of hy) hyr
      rw [hlive _ _ _ _ hone]
      by_cases hys : y = s
      · rw [hys, Function.update_self]
      · rw [Function.update_of_ne hys, hyk]
    · cases hone with
      | handlerThrew => exact hid
      | listenerThrew => exact hid
      | done =>
        have hne : id ≠ k.sessionId s := by
          rintro rfl
          have hdead := hss s List.mem_cons_self x hid hxs
          rw [hxk] at hdead
          cases hdead
        exact (OrderedMap.get?_erase ..).trans ((if_neg hne).trans hid)

end NestQuickfix.Acceptor
