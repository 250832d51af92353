import Mathlib.Data.Multiset.AddSub
import NestQuickfix.Acceptor.System

/-!
# The life of sessions

Most acceptor code only sends, logs, or calls users. What matters for the life of
sessions is less: which sessions have a running heartbeat timer and are logged on,
the registry, the `close` listeners, the registrations under way and the reports of
disconnects. The code can only change these in a few ways.
-/

namespace NestQuickfix.Acceptor

open Lib

/-- What a suspended task will do to the registry or to the listeners. -/
inductive Pending where
  /-- Session `s`, created for connection `c`, has not handled its Logon yet. -/
  | starting (c s : ℕ)
  /-- Session `s` will be registered, perhaps after the logout of an old session. -/
  | registering (s : ℕ) (old : Option ℕ)
  deriving DecidableEq

/-- The registration that waits for the logout of a session. -/
def LogoutCaller.pending (old : ℕ) : LogoutCaller → Option Pending
  | .registration s _ => some (.registering s (some old))
  | _ => none

/-- What a task will do to the registry or to the listeners. -/
def Frame.pending : Frame → Option Pending
  | .created c s _ _ => some (.starting c s)
  | .handlersSet c s _ _ => some (.starting c s)
  | .registration s _ => some (.registering s none)
  | .logoutSent old caller _ => caller.pending old
  | _ => none

/-- The observations about routing, registration, logon and disconnects. -/
def Observation.vital : Observation → Bool
  | .dispatched .. => true
  | .answered _ => true
  | .ran _ .disconnected => true
  | .emitted _ .disconnect => true
  | .unhandled .. => true
  | _ => false

/-- What matters for the life of sessions. -/
structure Lifecycle where
  maxSessions : ℕ
  sessionId : ℕ → JSString
  socket : ℕ → ℕ
  timer : ℕ → Bool
  loggedOn : ℕ → Bool
  nextSession : ℕ
  registry : OrderedMap JSString ℕ
  closed : ℕ → Bool
  listeners : ℕ → List CloseListener
  pending : Multiset Pending
  closing : Option (ℕ × List CloseListener)
  trace : List Observation

/-- The life of the sessions of an acceptor. -/
def AcceptorState.lifecycle (st : AcceptorState) : Lifecycle where
  maxSessions := st.config.maxSessions
  sessionId s := (st.sessions s).sessionId
  socket s := (st.sessions s).socket
  timer s := (st.sessions s).heartbeatTimer
  loggedOn s := decide ((st.sessions s).state = .loggedOn)
  nextSession := st.nextSession
  registry := st.registry
  closed c := (st.sockets c).closed
  listeners c := (st.sockets c).closeListeners
  pending := st.tasks.filterMap Frame.pending
  closing := st.closing
  trace := st.trace.filter Observation.vital

namespace Lifecycle

/-- Whether the limit on the number of sessions is reached. -/
def limitReached (k : Lifecycle) : Bool :=
  decide (k.maxSessions ≠ 0 ∧ k.maxSessions ≤ k.registry.size)

/-! ## The ways it changes -/

/-- A session is DISCONNECTED and its timers are cleared. -/
def stop (k : Lifecycle) (s : ℕ) : Lifecycle :=
  { k with
    timer := Function.update k.timer s false
    loggedOn := Function.update k.loggedOn s false }

/-- An observation is made. -/
def observe (k : Lifecycle) (o : Observation) : Lifecycle := { k with trace := k.trace ++ [o] }

/-- A session is disconnected and runs its handlers. -/
def disconnect (k : Lifecycle) (s : ℕ) : Lifecycle := (k.stop s).observe (.ran s .disconnected)

/-- The disconnect of a session is emitted. -/
def report (k : Lifecycle) (s : ℕ) : Lifecycle := k.observe (.emitted s .disconnect)

/-- A socket loses its listeners. -/
def strip (k : Lifecycle) (c : ℕ) : Lifecycle :=
  { k with listeners := Function.update k.listeners c [] }

/-- A socket gets a `close` listener. -/
def listen (k : Lifecycle) (c : ℕ) (l : CloseListener) : Lifecycle :=
  { k with listeners := Function.update k.listeners c (k.listeners c ++ [l]) }

/-- The entry under an id is removed. -/
def remove (k : Lifecycle) (id : JSString) : Lifecycle :=
  { k with registry := k.registry.erase id }

/-- A session is stored under its id. -/
def register (k : Lifecycle) (s : ℕ) : Lifecycle :=
  { k with registry := k.registry.set (k.sessionId s) s }

/-- All entries are removed. -/
def clear (k : Lifecycle) : Lifecycle := { k with registry := .empty }

/-- A session is created. -/
def create (k : Lifecycle) (id : JSString) (c : ℕ) : Lifecycle :=
  { k with
    sessionId := Function.update k.sessionId k.nextSession id
    socket := Function.update k.socket k.nextSession c
    timer := Function.update k.timer k.nextSession true
    loggedOn := Function.update k.loggedOn k.nextSession false
    nextSession := k.nextSession + 1 }

/-- A session enters LOGGED_ON. -/
def logOn (k : Lifecycle) (s : ℕ) : Lifecycle :=
  { k with loggedOn := Function.update k.loggedOn s true }

/-- A task is suspended. -/
def suspend (k : Lifecycle) (p : Pending) : Lifecycle := { k with pending := p ::ₘ k.pending }

/-- A task goes on. -/
def resume (k : Lifecycle) (p : Pending) : Lifecycle := { k with pending := k.pending.erase p }

/-- A task that may have been pending goes on. -/
def taken (k : Lifecycle) : Option Pending → Lifecycle
  | none => k
  | some p => k.resume p

/-- A registration goes on when the logout it waited for has ended. -/
def settled (k : Lifecycle) : LogoutCaller → Lifecycle
  | .registration s _ => k.suspend (.registering s none)
  | _ => k

/-- A socket is closed. -/
def close (k : Lifecycle) (c : ℕ) : Lifecycle :=
  { k with closed := Function.update k.closed c true, closing := some (c, k.listeners c) }

/-- The listeners of a `close` event still to be called. -/
def setClosing (k : Lifecycle) (closing : Option (ℕ × List CloseListener)) : Lifecycle :=
  { k with closing := closing }

/-- The attempts to end a session: a handler or a listener may throw before the listeners
and the entry are removed. -/
inductive TornDown (s : ℕ) (k : Lifecycle) : Bool → Lifecycle → Prop
  | handlerThrew : TornDown s k false (k.disconnect s)
  | listenerThrew : TornDown s k false ((k.disconnect s).report s)
  | done : TornDown s k true ((((k.disconnect s).report s).strip (k.socket s)).remove
      (k.sessionId s))

/-- Some sessions of a list are ended, in order. -/
inductive TearDowns : List ℕ → Lifecycle → Lifecycle → Prop
  | stop {ss : List ℕ} {k : Lifecycle} : TearDowns ss k k
  | next {s : ℕ} {ss : List ℕ} {b : Bool} {k k' k'' : Lifecycle} : TornDown s k b k' →
      TearDowns ss k' k'' → TearDowns (s :: ss) k k''

theorem TornDown.tearDowns {s : ℕ} {k k' : Lifecycle} {b : Bool} (h : TornDown s k b k') :
    TearDowns [s] k k' :=
  .next h .stop

/-- An attempt to end a session stops its timers. -/
theorem TornDown.timer {s : ℕ} {k k' : Lifecycle} {b : Bool} (h : TornDown s k b k') :
    k'.timer = Function.update k.timer s false := by
  cases h <;> rfl

theorem TornDown.loggedOn {s : ℕ} {k k' : Lifecycle} {b : Bool} (h : TornDown s k b k') :
    k'.loggedOn = Function.update k.loggedOn s false := by
  cases h <;> rfl

theorem TornDown.timer_eq_false {s : ℕ} {k k' : Lifecycle} {b : Bool} (h : TornDown s k b k') :
    k'.timer s = false := by
  rw [h.timer, Function.update_self]

theorem TornDown.timer_of_ne {s x : ℕ} {k k' : Lifecycle} {b : Bool} (h : TornDown s k b k')
    (hx : x ≠ s) : k'.timer x = k.timer x := by
  rw [h.timer, Function.update_of_ne hx]

/-- The reports of the disconnect of a session: its handlers run, and it emits DISCONNECT. -/
def disconnectReports (s : ℕ) : List Observation := [.ran s .disconnected, .emitted s .disconnect]

/-- The end of a session appends some reports of its disconnect to the trace, in order and
each of them at most once. -/
theorem TornDown.trace {s : ℕ} {k k' : Lifecycle} {b : Bool} (h : TornDown s k b k') :
    ∃ l, l.Sublist (disconnectReports s) ∧ k'.trace = k.trace ++ l := by
  cases h with
  | handlerThrew => exact ⟨[.ran s .disconnected], by simp [disconnectReports], rfl⟩
  | listenerThrew => exact ⟨disconnectReports s, .refl _, List.append_assoc ..⟩
  | done => exact ⟨disconnectReports s, .refl _, List.append_assoc ..⟩

/-- The end of a session makes no other observation. -/
theorem TornDown.mem_trace {s : ℕ} {k k' : Lifecycle} {b : Bool} {o : Observation}
    (h : TornDown s k b k') (ho : o ∉ disconnectReports s) : o ∈ k'.trace ↔ o ∈ k.trace := by
  obtain ⟨l, hl, htrace⟩ := h.trace
  rw [htrace, List.mem_append, or_iff_left]
  exact fun hmem => ho (hl.subset hmem)

theorem TearDowns.mem_trace {ss : List ℕ} {k k' : Lifecycle} {o : Observation}
    (h : TearDowns ss k k') (ho : ∀ s, o ∉ disconnectReports s) :
    o ∈ k'.trace ↔ o ∈ k.trace := by
  induction h with
  | stop => rfl
  | next hone _ ih => exact ih.trans (hone.mem_trace (ho _))

/-- The end of sessions only appends to the trace. -/
theorem TearDowns.prefix_trace {ss : List ℕ} {k k' : Lifecycle} (h : TearDowns ss k k') :
    k.trace <+: k'.trace := by
  induction h with
  | stop => exact List.prefix_rfl
  | next hone _ ih =>
    obtain ⟨l, _, htrace⟩ := hone.trace
    exact (htrace ▸ List.prefix_append _ l).trans ih

/-- The end of a session only removes entries. -/
theorem TornDown.get?_of {s x : ℕ} {k k' : Lifecycle} {b : Bool} {id : JSString}
    (h : TornDown s k b k') (hid : k'.registry.get? id = some x) :
    k.registry.get? id = some x := by
  cases h with
  | handlerThrew => exact hid
  | listenerThrew => exact hid
  | done =>
    rw [remove, OrderedMap.get?_erase] at hid
    split at hid
    · cases hid
    · exact hid

/-- Taking a task only changes the pending tasks. -/
theorem taken_eq (k : Lifecycle) (p : Option Pending) :
    k.taken p = { k with pending := (k.taken p).pending } := by
  cases p <;> rfl

/-- Settling a logout only changes the pending tasks. -/
theorem settled_eq (k : Lifecycle) (caller : LogoutCaller) :
    k.settled caller = { k with pending := (k.settled caller).pending } := by
  cases caller <;> rfl

/-- The same sessions, with the same ids and sockets. -/
structure SameSessions (k k' : Lifecycle) : Prop where
  sessionId : k'.sessionId = k.sessionId
  socket : k'.socket = k.socket
  nextSession : k'.nextSession = k.nextSession

/-- Sessions stay, with their ids and sockets. -/
structure KeepsSessions (k k' : Lifecycle) : Prop where
  nextSession : k.nextSession ≤ k'.nextSession
  sessionId : ∀ s, s < k.nextSession → k'.sessionId s = k.sessionId s
  socket : ∀ s, s < k.nextSession → k'.socket s = k.socket s

theorem SameSessions.keepsSessions {k k' : Lifecycle} (h : SameSessions k k') :
    KeepsSessions k k' :=
  ⟨h.nextSession.ge, fun s _ => congrFun h.sessionId s, fun s _ => congrFun h.socket s⟩

/-- What the end of a session does not touch. -/
structure Untouched (k k' : Lifecycle) : Prop extends SameSessions k k' where
  closed : k'.closed = k.closed
  pending : k'.pending = k.pending
  closing : k'.closing = k.closing

theorem TornDown.untouched {s : ℕ} {k k' : Lifecycle} {b : Bool} (h : TornDown s k b k') :
    Untouched k k' := by
  cases h with
  | handlerThrew => exact ⟨⟨rfl, rfl, rfl⟩, rfl, rfl, rfl⟩
  | listenerThrew => exact ⟨⟨rfl, rfl, rfl⟩, rfl, rfl, rfl⟩
  | done => exact ⟨⟨rfl, rfl, rfl⟩, rfl, rfl, rfl⟩

theorem TearDowns.untouched {ss : List ℕ} {k k' : Lifecycle} (h : TearDowns ss k k') :
    Untouched k k' := by
  induction h with
  | stop => exact ⟨⟨rfl, rfl, rfl⟩, rfl, rfl, rfl⟩
  | next hone _ ih =>
    have hk := hone.untouched
    exact ⟨⟨ih.sessionId.trans hk.sessionId, ih.socket.trans hk.socket,
      ih.nextSession.trans hk.nextSession⟩, ih.closed.trans hk.closed,
      ih.pending.trans hk.pending, ih.closing.trans hk.closing⟩

/-! ## Lowering -/

/-- Sessions may have left LOGGED_ON; nothing else has changed. -/
def Lowered (k k' : Lifecycle) : Prop :=
  ∃ l : ℕ → Bool, (∀ s, l s = true → k.loggedOn s = true) ∧ k' = { k with loggedOn := l }

theorem Lowered.refl (k : Lifecycle) : Lowered k k := ⟨k.loggedOn, fun _ h => h, rfl⟩

theorem Lowered.of_eq {k k' : Lifecycle} (h : k' = k) : Lowered k k' := h ▸ Lowered.refl k'

theorem Lowered.trans {k k' k'' : Lifecycle} (h : Lowered k k') (h' : Lowered k' k'') :
    Lowered k k'' := by
  obtain ⟨l, hl, rfl⟩ := h
  obtain ⟨l', hl', rfl⟩ := h'
  exact ⟨l', fun s hs => hl s (hl' s hs), rfl⟩

/-! Every change commutes with the lowering of LOGGED_ON. -/

theorem Lowered.observe {k k' : Lifecycle} (h : Lowered k k') (o : Observation) :
    Lowered (k.observe o) (k'.observe o) := by
  obtain ⟨l, hl, rfl⟩ := h
  exact ⟨l, hl, rfl⟩

theorem Lowered.strip {k k' : Lifecycle} (h : Lowered k k') (c : ℕ) :
    Lowered (k.strip c) (k'.strip c) := by
  obtain ⟨l, hl, rfl⟩ := h
  exact ⟨l, hl, rfl⟩

theorem Lowered.listen {k k' : Lifecycle} (h : Lowered k k') (c : ℕ) (x : CloseListener) :
    Lowered (k.listen c x) (k'.listen c x) := by
  obtain ⟨l, hl, rfl⟩ := h
  exact ⟨l, hl, rfl⟩

theorem Lowered.remove {k k' : Lifecycle} (h : Lowered k k') (id : JSString) :
    Lowered (k.remove id) (k'.remove id) := by
  obtain ⟨l, hl, rfl⟩ := h
  exact ⟨l, hl, rfl⟩

theorem Lowered.register {k k' : Lifecycle} (h : Lowered k k') (s : ℕ) :
    Lowered (k.register s) (k'.register s) := by
  obtain ⟨l, hl, rfl⟩ := h
  exact ⟨l, hl, rfl⟩

theorem Lowered.suspend {k k' : Lifecycle} (h : Lowered k k') (p : Pending) :
    Lowered (k.suspend p) (k'.suspend p) := by
  obtain ⟨l, hl, rfl⟩ := h
  exact ⟨l, hl, rfl⟩

theorem Lowered.setClosing {k k' : Lifecycle} (h : Lowered k k')
    (closing : Option (ℕ × List CloseListener)) :
    Lowered (k.setClosing closing) (k'.setClosing closing) := by
  obtain ⟨l, hl, rfl⟩ := h
  exact ⟨l, hl, rfl⟩

theorem Lowered.stop {k k' : Lifecycle} (h : Lowered k k') (s : ℕ) :
    Lowered (k.stop s) (k'.stop s) := by
  obtain ⟨l, hl, rfl⟩ := h
  refine ⟨Function.update l s false, fun x hx => ?_, rfl⟩
  by_cases hxs : x = s
  · subst x
    simp at hx
  · rw [Function.update_of_ne hxs] at hx
    simpa [Lifecycle.stop, hxs] using hl x hx

theorem Lowered.logOn {k k' : Lifecycle} (h : Lowered k k') (s : ℕ) :
    Lowered (k.logOn s) (k'.logOn s) := by
  obtain ⟨l, hl, rfl⟩ := h
  refine ⟨Function.update l s true, fun x hx => ?_, rfl⟩
  by_cases hxs : x = s
  · simp [Lifecycle.logOn, hxs]
  · rw [Function.update_of_ne hxs] at hx
    simpa [Lifecycle.logOn, hxs] using hl x hx

end Lifecycle

end NestQuickfix.Acceptor
