import NestQuickfix.Acceptor.Closes
import NestQuickfix.Acceptor.Departures
import NestQuickfix.Acceptor.Zombies

/-!
# Tear-downs

A session is ended by its `logout`, by a Logout of its peer, or by the close of its socket. All
three call handlers and listeners of the user before they remove the entry, and the first one
that throws cuts the rest short. Otherwise the session is DISCONNECTED afterwards, with its
timers cleared, without an entry, and in no room if its id had an entry.
-/

namespace NestQuickfix.Acceptor

open Lib Lib.Exec

/-- A session has been torn down. -/
structure AcceptorState.Gone (st : AcceptorState) (s : ℕ) : Prop where
  off : (st.sessions s).Off
  entry : st.registry.get? (st.sessions s).sessionId ≠ some s
  rooms : Vacated st.rooms (st.sessions s).sessionId

/-- A session has no entry, and its id is in no room. -/
def AcceptorState.removed (st : AcceptorState) (s : ℕ) : Bool :=
  decide (st.registry.get? (st.sessions s).sessionId ≠ some s) &&
    (st.rooms.getSessionRooms (st.sessions s).sessionId).isEmpty

/-- Whether a session has been torn down. -/
def AcceptorState.gone (st : AcceptorState) (s : ℕ) : Bool :=
  decide ((st.sessions s).state = .disconnected) && !(st.sessions s).heartbeatTimer && st.removed s

/-- The id of a session has an entry or is in no room. -/
def AcceptorState.leavesRooms (st : AcceptorState) (s : ℕ) : Bool :=
  st.registry.has (st.sessions s).sessionId ||
    (st.rooms.getSessionRooms (st.sessions s).sessionId).isEmpty

/-- After the step in which its `logout` goes on after the Logout message, or in which it handles
a Logout of its peer, a session has been torn down and its socket is ended. -/
def LogoutsTearDown (st : AcceptorState) (e : Step) : Prop :=
  ∀ st' ∈ st.step e, ∀ s ∈ (st.meets e).endsEarly e.event,
    st'.Gone s ∧ st'.writable (st.sessions s).socket = false

/-- When the `close` event of a socket is over, all sessions on the socket have been torn down. -/
def ClosesTearDown (st : AcceptorState) (e : Step) : Prop :=
  ∀ st' ∈ st.step e, st'.closing = none → ∀ x ∈ st.closing, ∀ s < st.nextSession,
    (st.sessions s).socket = x.1 → st'.Gone s

/-- The condition on the logout paths: no user code throws before the entry is removed, and
the id has an entry or is in no room; or the session had been torn down before. -/
def LogoutsComplete (st : AcceptorState) (e : Step) : Prop :=
  ∀ s ∈ (st.meets e).endsEarly e.event,
    s ∈ (st.meets e).completes e.event ∧ st.leavesRooms s = true ∨
      st.gone s = true ∧ (st.meets e).writable (st.sessions s).socket = false

instance : ∀ (st : AcceptorState) (e : Step), Decidable (LogoutsComplete st e) := fun st e =>
  inferInstanceAs (Decidable (∀ s ∈ (st.meets e).endsEarly e.event,
    s ∈ (st.meets e).completes e.event ∧ st.leavesRooms s = true ∨
      st.gone s = true ∧ (st.meets e).writable (st.sessions s).socket = false))

/-- A session on a closing socket is provided for: it has been torn down, or it is registered
and the acceptor's listener comes next, or its own listener is still to come. -/
def AcceptorState.provides (st : AcceptorState) (listeners : List CloseListener) (s : ℕ) : Bool :=
  st.gone s ||
    decide (listeners.head? = some .acceptor) &&
      decide (st.registry.get? (st.sessions s).sessionId = some s) ||
    decide (.session s ∈ listeners) && st.leavesRooms s

/-- The close of a socket is not cut short: when it begins, every session on the socket is
provided for; a session whose tear-down by the acceptor's listener is cut short has its own
listener still to come; and when the listener of a session is cut short, nothing is left to do. -/
def AcceptorState.closesCompletely (st : AcceptorState) (e : Step) : Bool :=
  match e.event, st.closing with
  | .close c, _ => decide (∀ s < st.nextSession, (st.sessions s).socket = c →
      st.provides (st.sockets c).closeListeners s = true)
  | .nextListener, some (_, .acceptor :: listeners) =>
    decide (∀ s ∈ (st.meets e).ends .nextListener,
      s ∈ (st.meets e).completes .nextListener ∨ .session s ∈ listeners)
  | .nextListener, some (c, .session y :: _) =>
    decide (y ∈ (st.meets e).completes .nextListener ∨
      ∀ s < st.nextSession, (st.sessions s).socket = c →
        st.gone s = true ∨ s = y ∧ st.removed s = true)
  | _, _ => true

/-- The condition on the close of a socket. -/
def ClosesComplete (st : AcceptorState) (e : Step) : Prop := st.closesCompletely e = true

instance : ∀ (st : AcceptorState) (e : Step), Decidable (ClosesComplete st e) := fun st e =>
  inferInstanceAs (Decidable (st.closesCompletely e = true))

/-- A registered session is torn down on the logout paths exactly when no user code throws before
its entry is removed. -/
def TearsDownRegistered (st : AcceptorState) (e : Step) : Prop :=
  ∀ st' ∈ st.step e, ∀ s ∈ (st.meets e).endsEarly e.event,
    st.registry.get? (st.sessions s).sessionId = some s →
      (st'.Gone s ∧ st'.writable (st.sessions s).socket = false ↔
        s ∈ (st.meets e).completes e.event)

variable {guard : AcceptorState → Step → Prop} {st st0 st' : AcceptorState} {e : Step} {a : Act}
  {c s : ℕ} {ls : List CloseListener}

/-! ## Sessions that are gone -/

theorem removed_iff (h : st.RoomsHold) : st.removed s = true ↔
    st.registry.get? (st.sessions s).sessionId ≠ some s ∧
      Vacated st.rooms (st.sessions s).sessionId := by
  rw [AcceptorState.removed, Bool.and_eq_true, decide_eq_true_eq, List.isEmpty_iff,
    vacated_iff_getSessionRooms h]

theorem gone_iff (h : st.RoomsHold) : st.gone s = true ↔ st.Gone s := by
  rw [AcceptorState.gone, Bool.and_eq_true, Bool.and_eq_true, decide_eq_true_eq,
    Bool.not_eq_true', removed_iff h]
  exact ⟨fun ⟨hoff, hentry, hrooms⟩ => ⟨⟨hoff.1, hoff.2⟩, hentry, hrooms⟩,
    fun hgone => ⟨⟨hgone.off.state, hgone.off.heartbeatTimer⟩, hgone.entry, hgone.rooms⟩⟩

theorem leavesRooms_iff (h : st.RoomsHold) :
    st.leavesRooms s = true ↔ st.Leaving (st.sessions s).sessionId := by
  rw [AcceptorState.leavesRooms, Bool.or_eq_true, List.isEmpty_iff, AcceptorState.Leaving,
    vacated_iff_getSessionRooms h]

/-- A session without an entry under its id is gone when it is off and its rooms are left. -/
theorem gone_of_absent (hoff : (st.sessions s).Off)
    (habsent : st.registry.has (st.sessions s).sessionId = false)
    (hleaving : st.Leaving (st.sessions s).sessionId) : st.Gone s := by
  refine ⟨hoff, fun hentry => ?_, hleaving.resolve_left fun hhas => ?_⟩
  · rw [OrderedMap.has_eq_isSome, hentry] at habsent
    cases habsent
  · rw [habsent] at hhas
    cases hhas

/-- Only an assignment of a state, and no `logout`, takes a session out of DISCONNECTED. -/
theorem off_act (hs : s < st.nextSession)
    (hset : ∀ x state, a = .setState x state → state = .disconnected)
    (h : (st.sessions s).Off) : ((a.apply st).sessions s).Off := by
  refine ⟨?_, timer_apply_of_off a hs h.heartbeatTimer⟩
  rw [sessions_apply_eq]
  cases a with
  | setState y state =>
    simp only [Act.onSession]
    split
    · exact hset y state rfl
    · exact h.state
  | beginLogout y =>
    simp only [Act.onSession]
    split
    · next hne => exact absurd h.state hne.2
    · exact h.state
  | create config c => rw [Act.onSession, if_neg (Nat.ne_of_gt hs)]; exact h.state
  | addHandlers y metadata =>
    simp only [Act.onSession, Session.withHandlers]
    split
    · split <;> exact h.state
    · exact h.state
  | disconnect y =>
    simp only [Act.onSession]
    split
    · rfl
    · exact h.state
  | count y =>
    simp only [Act.onSession]
    split <;> exact h.state
  | _ => exact h.state

/-- A socket that is not writable stays so. -/
theorem writable_act (a : Act) (h : st.writable c = false) : (a.apply st).writable c = false := by
  have hflags : ∀ st1 : AcceptorState, st1.writable c = (st1.input.writable c &&
      !((st1.sockets c).ended || (st1.sockets c).destroyed || (st1.sockets c).closed)) := by
    intro st1
    simp [AcceptorState.writable, Bool.and_assoc]
  have hupdate : ∀ (x : ℕ) (f : Connection → Connection),
      (∀ y : Connection, (y.ended || y.destroyed || y.closed) = true →
        ((f y).ended || (f y).destroyed || (f y).closed) = true) →
      (st.withSocketAs x f).writable c = false := by
    intro x f hf
    rw [hflags] at h ⊢
    refine withSocketAs_sockets (P := fun y =>
      (st.input.writable c && !(y.ended || y.destroyed || y.closed)) = false) ?_ fun _ => h
    rintro rfl
    rw [Bool.and_eq_false_iff, Bool.not_eq_false'] at h ⊢
    exact h.imp_right (hf _)
  cases a with
  | strip s => exact hupdate _ _ fun _ => id
  | destroy x => exact hupdate x _ fun y _ => by simp
  | endSocket s => exact hupdate _ _ fun y _ => by simp
  | listen x s => exact hupdate x _ fun _ => id
  | connect r =>
    exact hupdate st.nextSocket (fun x => { x with remoteAddress := r }.setupSocketEventHandlers)
      fun _ => id
  | close x => exact hupdate x (fun x => { x with closed := true }) fun y _ => by simp
  | remove _ => rwa [Act.apply, AcceptorState.withoutEntry_eq]
  | removeId s =>
    rw [Act.apply, AcceptorState.withoutEnded]
    split
    · exact h
    · rwa [AcceptorState.withoutEntry_eq]
  | settleCloseAll k result => rwa [Act.apply, AcceptorState.settled_eq]
  | _ => exact h

theorem sessionId_step (hstep : st.step e = some st') (hs : s < st.nextSession) :
    (st'.sessions s).sessionId = (st.sessions s).sessionId := by
  rw [Session.sessionId, (binding_step hstep hs).1]
  rfl

/-- A session without an entry and in no room is gone once it is off. -/
theorem gone_of_off (hstep : st.step e = some st') (h : st.RoomsHold) (hs : s < st.nextSession)
    (hends : (st.meets e).EndsSessions e.event) (hoff : (st'.sessions s).Off)
    (hentry : st.registry.get? (st.sessions s).sessionId ≠ some s)
    (hrooms : Vacated st.rooms (st.sessions s).sessionId) : st'.Gone s := by
  have hkept := step_keeps hstep (P := fun st1 => st1.RoomsHold ∧
    st1.registry.get? (st.sessions s).sessionId ≠ some s ∧
      Vacated st1.rooms (st.sessions s).sessionId) ⟨h, hentry, hrooms⟩ ?_
  · refine ⟨hoff, ?_, ?_⟩
    · rw [sessionId_step hstep hs]
      exact hkept.2.1
    · rw [sessionId_step hstep hs]
      exact hkept.2.2
  · rintro st1 a _ ha ⟨hrooms1, hentry1, hvacated1⟩
    have hending := ending_of_causedBy hends ha
    exact ⟨hrooms1.act a, fun hget => hentry1 (get?_of_apply hending.register hget),
      vacated_act hrooms1 hending.join hvacated1⟩

/-- A session that is gone stays so while others end. -/
theorem gone_step (hstep : st.step e = some st') (h : st.RoomsHold) (hs : s < st.nextSession)
    (hends : (st.meets e).EndsSessions e.event) (hgone : st.Gone s) : st'.Gone s := by
  refine gone_of_off hstep h hs hends ?_ hgone.entry hgone.rooms
  refine (step_keeps hstep (P := fun st1 => s < st1.nextSession ∧ (st1.sessions s).Off)
    ⟨hs, hgone.off⟩ fun st1 a _ ha hst1 => ?_).2
  exact ⟨hst1.1.trans_le (nextSession_le_apply a st1),
    off_act hst1.1 (ending_of_causedBy hends ha).setState hst1.2⟩

/-! ## Logouts -/

theorem mem_endsEarly {event : Event} :
    s ∈ st.endsEarly event ↔ event ≠ .nextListener ∧ s ∈ st.ends event := by
  cases event with
  | nextListener => exact ⟨fun h => (List.not_mem_nil h).elim, fun h => absurd rfl h.1⟩
  | _ => exact ⟨fun h => ⟨Event.noConfusion, h⟩, fun h => h.2⟩

/-- A logout that no user code cuts short tears the session down. -/
theorem gone_of_completes (hstep : st.step e = some st') (h : st.RoomsHold)
    (hclose : e.event ≠ .nextListener) (hs : s ∈ (st.meets e).completes e.event)
    (hleaving : st.Leaving (st.sessions s).sessionId) :
    st'.Gone s ∧ st'.writable (st.sessions s).socket = false := by
  have hleft := left_of_completes hs hclose
  rw [after_of_step hstep] at hleft
  have hid : (st'.sessions s).sessionId = (st.sessions s).sessionId := hleft.setup.sessionId s
  refine ⟨gone_of_absent hleft.off ?_ ?_, hleft.ended⟩
  · rw [hid]
    exact hleft.absent
  · rw [hid]
    exact leaving_step hstep h (Or.inr ⟨s, ends_of_completes hs⟩) hleaving

/-- A step that meets the condition tears down the sessions whose logout it ends. -/
theorem logoutsTearDown_step (hreached : acceptor.Reached guard st) (h : st.RoomsHold)
    (hcomplete : LogoutsComplete st e) : LogoutsTearDown st e := by
  intro st' hstep s hearly
  obtain ⟨hclose, hs⟩ := mem_endsEarly.mp hearly
  rcases hcomplete s hearly with ⟨hcompletes, hleaving⟩ | ⟨hgone, hended⟩
  · exact gone_of_completes hstep h hclose hcompletes ((leavesRooms_iff h).mp hleaving)
  · have hlt := lt_nextSession_of_ends hreached (step_enabled hstep) hs
    refine ⟨gone_step hstep h hlt (Or.inr ⟨s, hs⟩) ((gone_iff h).mp hgone), ?_⟩
    exact step_keeps hstep (P := fun st1 => st1.writable (st.sessions s).socket = false) hended
      fun _ a _ _ => writable_act a

/-- Apart from a `close` event, an event ends one session at most. -/
theorem ends_eq_singleton {event : Event} (hclose : event ≠ .nextListener)
    (hs : s ∈ st.ends event) : st.ends event = [s] := by
  by_cases hsent : ∀ i x caller error, event = .resume i →
      st.tasks[i]? ≠ some (.logoutSent x caller error)
  · obtain ⟨origin, m, hhandles, hlogout⟩ := handles_of_ends hs hclose hsent
    exact ends_of_handles hhandles hlogout
  · push Not at hsent
    obtain ⟨i, x, caller, error, rfl, hf⟩ := hsent
    have hends := ends_loggedOut hf
    rw [hends] at hs
    rwa [List.mem_singleton.mp hs]

/-- A session whose logout is cut short by user code keeps its entry. -/
theorem get?_of_not_completes (hstep : st.step e = some st') (hclose : e.event ≠ .nextListener)
    (hs : s ∈ (st.meets e).ends e.event) (hnot : s ∉ (st.meets e).completes e.event)
    {sessionId : JSString} (hentry : st.registry.get? sessionId = some s) :
    st'.registry.get? sessionId = some s := by
  refine step_keeps hstep (P := fun st1 => st1.registry.get? sessionId = some s) hentry
    fun st1 a _ ha hst1 => ?_
  have hending := ending_of_causedBy (Or.inr ⟨s, hs⟩) ha
  cases a with
  | register x => exact absurd rfl (hending.register x)
  | clear => exact absurd rfl hending.clear
  | remove id =>
    have hevent : e.event = .removeSession id := ha
    rw [hevent] at hs
    cases hs
  | removeId x =>
    have hx : x ∈ (st.meets e).completes e.event := ha
    have hends := ends_of_completes hx
    rw [ends_eq_singleton hclose hs] at hends
    rw [List.mem_singleton.mp hends] at hx
    exact absurd hx hnot
  | _ =>
    rw [registry_apply rfl]
    exact hst1

theorem tearsDownRegistered_step (hreached : acceptor.Reached guard st) (h : st.RoomsHold) :
    TearsDownRegistered st e := by
  intro st' hstep s hearly hentry
  obtain ⟨hclose, hs⟩ := mem_endsEarly.mp hearly
  constructor
  · rintro ⟨hgone, _⟩
    by_contra hnot
    have hlt := lt_nextSession_of_ends hreached (step_enabled hstep) hs
    refine hgone.entry ?_
    rw [sessionId_step hstep hlt]
    exact get?_of_not_completes hstep hclose hs hnot hentry
  · intro hcompletes
    refine gone_of_completes hstep h hclose hcompletes (Or.inl ?_)
    rw [OrderedMap.has_eq_isSome, hentry]
    rfl

/-! ## Close listeners -/

/-- The timers of a session are off, and an id has no entry. -/
structure Cleared (s : ℕ) (sessionId : JSString) (st : AcceptorState) : Prop where
  off : (st.sessions s).Off
  absent : st.registry.has sessionId = false

theorem absent_withoutEntry {sessionId : JSString} (h : st.registry.has sessionId = false)
    (id : JSString) : (st.withoutEntry id).registry.has sessionId = false := by
  rw [AcceptorState.withoutEntry_eq]
  dsimp only
  rw [OrderedMap.has_eq_isSome, OrderedMap.get?_erase]
  split
  · rfl
  · rwa [← OrderedMap.has_eq_isSome]

/-- A session that is cleared stays so while others end. -/
theorem Cleared.act {sessionId : JSString} {x : ℕ} {p : Prop} (h : Cleared s sessionId st)
    (ha : a ∈ tearDownActs x p) : Cleared s sessionId (a.apply st) := by
  rcases ha with (rfl | rfl | rfl | ⟨_, rfl⟩) | ⟨_, rfl | rfl⟩
  · exact ⟨h.off, h.absent⟩
  · refine ⟨?_, h.absent⟩
    rw [sessions_apply_eq, Act.onSession]
    split
    · exact ⟨rfl, rfl⟩
    · exact h.off
  · exact ⟨h.off, h.absent⟩
  · exact ⟨h.off, h.absent⟩
  · exact ⟨h.off, h.absent⟩
  · refine ⟨?_, ?_⟩
    · rw [sessions_apply rfl]
      exact h.off
    · simp only [Act.apply, AcceptorState.withoutEnded]
      split
      · exact h.absent
      · exact absent_withoutEntry h.absent _

/-- `handleDisconnect` and the removal of the entry, when no user code throws. -/
theorem result_tearDown (hcalm : st.input.calmFor (st.disconnectCalls s) = true) :
    ∃ st1, (handleDisconnect s >>= fun _ => removeId s).result st = (.ok (), st1) ∧
      Cleared s (st.sessions s).sessionId st1 ∧ SameSetup st st1 ∧
      st1.input = st.input.afterCalls (st.disconnectCalls s) := by
  have hcalls : Calls (st.disconnectCalls s) st (handleDisconnect s) := calls_handleDisconnect s
  rcases hr : (handleDisconnect s).result st with ⟨err | _, st1⟩
  · rw [hcalls.error err st1 hr] at hcalm
    cases hcalm
  · have hoff : (((handleDisconnect s).after st).sessions s).Off := off_handleDisconnect s
    rw [after_of_result hr] at hoff
    have hsetup := hcalls.setup_of_result hr
    have hremove : Calls 0 st1 (removeId s) := calls_removeId s
    rcases hr1 : (removeId s).result st1 with ⟨err | _, st2⟩
    · cases hremove.error err st2 hr1
    · have hst2 : st2 = st1.withoutEntry (st.sessions s).sessionId := by
        rw [← hsetup.sessionId, ← after_removeId, after_of_result hr1]
      refine ⟨st2, ?_, ?_, hsetup.trans (hremove.setup_of_result hr1), ?_⟩
      · rw [result_bind, hr]
        exact hr1
      · rw [hst2, AcceptorState.withoutEntry_eq]
        refine ⟨hoff, ?_⟩
        dsimp only
        rw [OrderedMap.has_eq_isSome, OrderedMap.get?_erase, if_pos rfl]
        rfl
      · rw [(hremove.ok _ _ hr1).2, Input.afterCalls_zero, (hcalls.ok _ _ hr).2]

/-- The acceptor's listener clears the sessions before the first one whose user code throws. -/
theorem cleared_cleanupSessions {n : ℕ} {ss : List ℕ} (hinput : st.input = st0.input.afterCalls n)
    (hcalm : st0.input.calmFor n = true) (hsetup : SameSetup st0 st)
    (hs : s ∈ st0.cleanedUp c n ss) :
    Cleared s (st0.sessions s).sessionId ((cleanupSessions c ss).after st) := by
  induction ss generalizing st n with
  | nil => cases hs
  | cons x ss ih =>
    rw [cleanupSessions, after_bind_of_ok (result_get st), (hsetup x).2.1]
    unfold AcceptorState.cleanedUp at hs
    split at hs
    · next hc =>
      rw [if_pos hc]
      split at hs
      · next hdone =>
        have hcalm1 : st.input.calmFor (st.disconnectCalls x) = true := by
          rw [Input.calmFor_add, hcalm, Bool.true_and] at hdone
          rwa [hinput, hsetup.disconnectCalls]
        obtain ⟨st1, hr1, hcleared, hsetup1, hinput1⟩ := result_tearDown hcalm1
        have hinput0 : st1.input = st0.input.afterCalls (n + st0.disconnectCalls x) := by
          rw [hinput1, hinput, Input.afterCalls_afterCalls, hsetup.disconnectCalls]
        have hsetup0 := hsetup.trans hsetup1
        rw [← bind_assoc, after_bind_of_ok hr1]
        rcases List.mem_cons.mp hs with rfl | hs
        · rw [hsetup.sessionId] at hcleared
          refine (performs_cleanupSessions ss _ hdone hinput0 hsetup0 fun _ => id).keeps
            (P := Cleared s (st0.sessions s).sessionId) ?_ hcleared
          rintro st2 a _ ⟨_, _, _, ha⟩ hst2
          exact hst2.act ha
        · exact ih hinput0 hdone hsetup0 hs
      · cases hs
    · next hc =>
      rw [if_neg hc]
      exact ih hinput hcalm hsetup hs

theorem closing_act {x : ℕ} {p : Prop} (ha : a ∈ tearDownActs x p) :
    (a.apply st).closing = st.closing := by
  rcases ha with (rfl | rfl | rfl | ⟨_, rfl⟩) | ⟨_, rfl | rfl⟩
  · rfl
  · rfl
  · rfl
  · rfl
  · rfl
  · exact withoutEnded_congr st x fun _ _ => rfl

/-- A listener does not touch the `close` event itself. -/
theorem closing_callCloseListener (c : ℕ) (l : CloseListener) :
    ((callCloseListener c l).after st).closing = st.closing := by
  refine Path.eq_of (f := AcceptorState.closing) ?_
    (performs_callCloseListener rfl (SameSetup.refl st) rfl fun _ => id)
  intro st1 a ha
  cases l with
  | acceptor =>
    rcases ha with rfl | ⟨_, _, _, ha⟩
    · rfl
    · exact closing_act ha
  | session x => exact closing_act ha

/-- The listener of the acceptor catches what user code throws. -/
theorem result_acceptorListener (c : ℕ) : (callCloseListener c .acceptor).result st =
    (.ok (), (cleanupSessions c st.registry.values).after ((Act.forget c).apply st)) := rfl

/-- The call of the acceptor's listener. -/
theorem cleared_acceptorListener (h : st.closing = some (c, .acceptor :: ls)) :
    (callNextListener.after st).closing = some (c, ls) ∧
      ∀ s ∈ st.completes .nextListener,
        Cleared s (st.sessions s).sessionId (callNextListener.after st) := by
  obtain ⟨st1, hst1⟩ : ∃ st1, (Act.setClosing (some (c, ls))).apply st = st1 := ⟨_, rfl⟩
  have hclosing : ((callCloseListener c .acceptor).after st1).closing = st1.closing :=
    closing_callCloseListener c _
  rw [after_of_result (result_acceptorListener c)] at hclosing
  rw [after_callNextListener h hst1, result_acceptorListener]
  subst hst1
  refine ⟨hclosing, fun s hs => ?_⟩
  have hcompletes : st.completes .nextListener = st.cleanedUp c 0 st.registry.values := by
    simp only [AcceptorState.completes, h]
  rw [hcompletes] at hs
  exact cleared_cleanupSessions rfl rfl (SameSetup.refl st) hs

theorem mem_completes_session {y : ℕ} (h : st.closing = some (c, .session y :: ls)) :
    y ∈ st.completes .nextListener ↔ st.input.calmFor (st.disconnectCalls y) = true := by
  simp [AcceptorState.completes, h, ends_listened h, AcceptorState.endingCalls]

/-- The call of the listener of a session. -/
theorem cleared_sessionListener {y : ℕ} (h : st.closing = some (c, .session y :: ls))
    (hy : y ∈ st.completes .nextListener) : (callNextListener.after st).closing = some (c, ls) ∧
      Cleared y (st.sessions y).sessionId (callNextListener.after st) := by
  obtain ⟨st1, hst1⟩ : ∃ st1, (Act.setClosing (some (c, ls))).apply st = st1 := ⟨_, rfl⟩
  have hcalm : st1.input.calmFor (st1.disconnectCalls y) = true := by
    subst hst1
    exact (mem_completes_session h).mp hy
  have hclosing : ((callCloseListener c (.session y)).after st1).closing = st1.closing :=
    closing_callCloseListener c _
  obtain ⟨st2, hr, hcleared, _⟩ := result_tearDown hcalm
  have hresult : (callCloseListener c (.session y)).result st1 = (.ok (), st2) := hr
  rw [after_of_result hresult] at hclosing
  rw [after_callNextListener h hst1, hresult]
  subst hst1
  exact ⟨hclosing, hcleared⟩

/-- If the listener of a session throws, the session is off, and the `close` event is over. -/
theorem off_sessionListener {y : ℕ} (h : st.closing = some (c, .session y :: ls))
    (hy : y ∉ st.completes .nextListener) : (callNextListener.after st).closing = none ∧
      ((callNextListener.after st).sessions y).Off := by
  obtain ⟨st1, hst1⟩ : ∃ st1, (Act.setClosing (some (c, ls))).apply st = st1 := ⟨_, rfl⟩
  have hthrows : st1.input.calmFor (st1.disconnectCalls y) ≠ true := by
    subst hst1
    exact fun hcalm => hy ((mem_completes_session h).mpr hcalm)
  have hcalls : Calls (st1.disconnectCalls y) st1 (handleDisconnect y) := calls_handleDisconnect y
  have hoff : (((handleDisconnect y).after st1).sessions y).Off := off_handleDisconnect y
  rcases hr : (handleDisconnect y).result st1 with ⟨err | _, st2⟩
  · have hresult : (callCloseListener c (.session y)).result st1 = (.error err, st2) := by
      rw [callCloseListener, result_bind, hr]
    rw [after_of_result hr] at hoff
    rw [after_callNextListener h hst1, hresult]
    exact ⟨rfl, hoff⟩
  · exact absurd (hcalls.ok _ _ hr).1 hthrows

/-- A step that calls a `close` listener. -/
theorem nextListener_step (hstep : st.step e = some st') (hevent : e.event = .nextListener) :
    callNextListener.after (st.meets e) = st' := by
  have hafter := after_of_step hstep
  rwa [hevent] at hafter

theorem cleared_step_acceptor (hstep : st.step e = some st') (hevent : e.event = .nextListener)
    (hclosing : st.closing = some (c, .acceptor :: ls)) : st'.closing = some (c, ls) ∧
      ∀ s ∈ (st.meets e).completes .nextListener, Cleared s (st.sessions s).sessionId st' := by
  have hmeets : (st.meets e).closing = some (c, .acceptor :: ls) := hclosing
  rw [← nextListener_step hstep hevent]
  exact cleared_acceptorListener hmeets

theorem cleared_step_session {y : ℕ} (hstep : st.step e = some st')
    (hevent : e.event = .nextListener) (hclosing : st.closing = some (c, .session y :: ls))
    (hy : y ∈ (st.meets e).completes .nextListener) :
    st'.closing = some (c, ls) ∧ Cleared y (st.sessions y).sessionId st' := by
  have hmeets : (st.meets e).closing = some (c, .session y :: ls) := hclosing
  rw [← nextListener_step hstep hevent]
  exact cleared_sessionListener hmeets hy

theorem off_step_session {y : ℕ} (hstep : st.step e = some st')
    (hevent : e.event = .nextListener) (hclosing : st.closing = some (c, .session y :: ls))
    (hy : y ∉ (st.meets e).completes .nextListener) :
    st'.closing = none ∧ (st'.sessions y).Off := by
  have hmeets : (st.meets e).closing = some (c, .session y :: ls) := hclosing
  rw [← nextListener_step hstep hevent]
  exact off_sessionListener hmeets hy

/-! ## The close of a socket -/

/-- The sessions on a closing socket are provided for. -/
def AcceptorState.Expecting (st : AcceptorState) : Prop :=
  ∀ x ∈ st.closing, ∀ s < st.nextSession, (st.sessions s).socket = x.1 → st.provides x.2 s = true

theorem provides_iff (h : st.RoomsHold) : st.provides ls s = true ↔
    (st.Gone s ∨ ls.head? = some .acceptor ∧
      st.registry.get? (st.sessions s).sessionId = some s) ∨
      .session s ∈ ls ∧ st.Leaving (st.sessions s).sessionId := by
  simp only [AcceptorState.provides, Bool.or_eq_true, Bool.and_eq_true, decide_eq_true_eq,
    gone_iff h, leavesRooms_iff h]

/-- A session that has been cleared, and whose rooms are left, is gone. -/
theorem gone_of_cleared (hstep : st.step e = some st') (h : st.RoomsHold) (hs : s < st.nextSession)
    (hends : (st.meets e).EndsSessions e.event)
    (hcleared : Cleared s (st.sessions s).sessionId st')
    (hleaving : st.Leaving (st.sessions s).sessionId) : st'.Gone s := by
  refine gone_of_absent hcleared.off ?_ ?_
  · rw [sessionId_step hstep hs]
    exact hcleared.absent
  · rw [sessionId_step hstep hs]
    exact leaving_step hstep h hends hleaving

/-- No session is created while a socket closes. -/
theorem nextSession_nextListener (hstep : st.step e = some st')
    (hevent : e.event = .nextListener) : st'.nextSession = st.nextSession := by
  refine step_keeps hstep (P := fun st1 => st1.nextSession = st.nextSession) rfl
    fun st1 a _ ha hst1 => ?_
  rw [nextSession_apply ?_ st1]
  · exact hst1
  · rintro config x rfl
    rw [hevent] at ha
    rcases ha with ⟨m, rest, ⟨i, hresume, _⟩, _⟩ | hnew | hcreate
    · cases hresume
    · cases hnew
    · cases hcreate

/-- After the last listener all sessions on the socket are gone. -/
theorem gone_of_expecting (hstep : st.step e = some st') (h : st.RoomsHold)
    (hexpecting : st.Expecting) (hevent : e.event = .nextListener)
    (hclosing : st.closing = some (c, [])) (hs : s < st.nextSession)
    (hsocket : (st.sessions s).socket = c) : st'.Gone s := by
  refine gone_step hstep h hs (Or.inl hevent) ?_
  rcases (provides_iff h).mp (hexpecting _ hclosing s hs hsocket) with (hgone | ⟨hhead, _⟩) | hmem
  · exact hgone
  · cases hhead
  · cases hmem.1

/-- The call of the acceptor's listener leaves the sessions on the socket provided for. -/
theorem provides_acceptorListener (hstep : st.step e = some st') (h : st.RoomsHold)
    (hexpecting : st.Expecting) (hcomplete : ClosesComplete st e)
    (hevent : e.event = .nextListener) (hclosing : st.closing = some (c, .acceptor :: ls))
    (hs : s < st.nextSession) (hsocket : (st.sessions s).socket = c) :
    st'.provides ls s = true := by
  have hends : (st.meets e).EndsSessions e.event := Or.inl hevent
  rw [provides_iff (roomsHold_step hstep h), sessionId_step hstep hs]
  rcases (provides_iff h).mp (hexpecting _ hclosing s hs hsocket) with (hgone | ⟨_, hentry⟩) | hmem
  · exact Or.inl (Or.inl (gone_step hstep h hs hends hgone))
  · have hleaving : st.Leaving (st.sessions s).sessionId := by
      refine Or.inl ?_
      rw [OrderedMap.has_eq_isSome, hentry]
      rfl
    have hmem : s ∈ (st.meets e).ends .nextListener := by
      have hmeets : (st.meets e).closing = some (c, .acceptor :: ls) := hclosing
      rw [ends_cleaned hmeets]
      exact List.mem_filter.mpr ⟨OrderedMap.mem_values_iff.mpr ⟨_, hentry⟩, decide_eq_true hsocket⟩
    unfold ClosesComplete AcceptorState.closesCompletely at hcomplete
    rw [hevent, hclosing] at hcomplete
    rcases of_decide_eq_true hcomplete s hmem with hcompletes | hlistener
    · have hcleared := (cleared_step_acceptor hstep hevent hclosing).2 s hcompletes
      exact Or.inl (Or.inl (gone_of_cleared hstep h hs hends hcleared hleaving))
    · exact Or.inr ⟨hlistener, leaving_step hstep h hends hleaving⟩
  · obtain ⟨hlistener, hleaving⟩ := hmem
    refine Or.inr ⟨?_, leaving_step hstep h hends hleaving⟩
    rcases List.mem_cons.mp hlistener with hacceptor | hrest
    · cases hacceptor
    · exact hrest

/-- The call of a session's listener leaves the sessions on the socket provided for. -/
theorem provides_sessionListener {y : ℕ} (hstep : st.step e = some st') (h : st.RoomsHold)
    (hexpecting : st.Expecting) (hevent : e.event = .nextListener)
    (hclosing : st.closing = some (c, .session y :: ls))
    (hy : y ∈ (st.meets e).completes .nextListener) (hs : s < st.nextSession)
    (hsocket : (st.sessions s).socket = c) : st'.provides ls s = true := by
  have hends : (st.meets e).EndsSessions e.event := Or.inl hevent
  rw [provides_iff (roomsHold_step hstep h), sessionId_step hstep hs]
  rcases (provides_iff h).mp (hexpecting _ hclosing s hs hsocket) with (hgone | ⟨hhead, _⟩) | hmem
  · exact Or.inl (Or.inl (gone_step hstep h hs hends hgone))
  · cases hhead
  · obtain ⟨hlistener, hleaving⟩ := hmem
    rcases List.mem_cons.mp hlistener with hown | hrest
    · obtain rfl := CloseListener.session.inj hown
      have hcleared := (cleared_step_session hstep hevent hclosing hy).2
      exact Or.inl (Or.inl (gone_of_cleared hstep h hs hends hcleared hleaving))
    · exact Or.inr ⟨hrest, leaving_step hstep h hends hleaving⟩

/-- When the listener of a session throws, the `close` event is over. -/
theorem gone_of_thrown {y : ℕ} (hstep : st.step e = some st') (h : st.RoomsHold)
    (hcomplete : ClosesComplete st e) (hevent : e.event = .nextListener)
    (hclosing : st.closing = some (c, .session y :: ls))
    (hy : y ∉ (st.meets e).completes .nextListener) (hs : s < st.nextSession)
    (hsocket : (st.sessions s).socket = c) : st'.Gone s := by
  have hends : (st.meets e).EndsSessions e.event := Or.inl hevent
  have hoff := (off_step_session hstep hevent hclosing hy).2
  unfold ClosesComplete AcceptorState.closesCompletely at hcomplete
  rw [hevent, hclosing] at hcomplete
  rcases (of_decide_eq_true hcomplete).resolve_left hy s hs hsocket with hgone | ⟨rfl, hremoved⟩
  · exact gone_step hstep h hs hends ((gone_iff h).mp hgone)
  · obtain ⟨hentry, hrooms⟩ := (removed_iff h).mp hremoved
    exact gone_of_off hstep h hs hends hoff hentry hrooms

/-- Only the close of a socket begins a `close` event. -/
theorem closing_step (hstep : st.step e = some st') (hclose : ∀ x, e.event ≠ .close x)
    (hnext : e.event ≠ .nextListener) : st'.closing = none := by
  refine step_keeps hstep (P := fun st1 => st1.closing = none)
    (closing_eq_none (step_enabled hstep) hnext) fun st1 a _ ha hst1 => ?_
  cases a with
  | close x => exact absurd ha (hclose x)
  | setClosing closing => exact absurd ha.1 hnext
  | remove _ => rwa [Act.apply, (sameSockets_withoutEntry st1 _).closing]
  | removeId _ => rwa [Act.apply, (sameSockets_withoutEnded st1 _).closing]
  | settleCloseAll k result => rwa [Act.apply, (sameSockets_settled st1 k result).closing]
  | _ => exact hst1

theorem expecting_close (hstep : st.step e = some st') (hcomplete : ClosesComplete st e)
    (hclose : e.event = .close c) : st'.Expecting := by
  have hafter := after_of_step hstep
  rw [hclose, perform, after_beginClose] at hafter
  subst hafter
  unfold ClosesComplete AcceptorState.closesCompletely at hcomplete
  rw [hclose] at hcomplete
  intro x hx s hs hsocket
  obtain rfl := Option.some.inj (Option.mem_def.mp hx)
  exact of_decide_eq_true hcomplete s hs hsocket

theorem expecting_nextListener (hstep : st.step e = some st') (h : st.RoomsHold)
    (hexpecting : st.Expecting) (hcomplete : ClosesComplete st e)
    (hnext : e.event = .nextListener) : st'.Expecting := by
  have hsome : st.closing.isSome = true := by
    have henabled := step_enabled hstep
    rwa [hnext] at henabled
  obtain ⟨⟨c, listeners⟩, hclosing⟩ := Option.isSome_iff_exists.mp hsome
  intro x hx s hs hsocket
  rw [nextSession_nextListener hstep hnext] at hs
  rw [(binding_step hstep hs).2] at hsocket
  cases listeners with
  | nil =>
    have hnone : st'.closing = none := by
      have hmeets : (st.meets e).closing = some (c, []) := hclosing
      rw [← nextListener_step hstep hnext, callNextListener,
        after_bind_of_ok (result_get _), hmeets]
      rfl
    rw [hnone] at hx
    cases hx
  | cons l ls =>
    cases l with
    | acceptor =>
      have hclosing' := (cleared_step_acceptor hstep hnext hclosing).1
      rw [Option.mem_def.mp hx] at hclosing'
      obtain rfl := Option.some.inj hclosing'
      exact provides_acceptorListener hstep h hexpecting hcomplete hnext hclosing hs hsocket
    | session y =>
      by_cases hy : y ∈ (st.meets e).completes .nextListener
      · have hclosing' := (cleared_step_session hstep hnext hclosing hy).1
        rw [Option.mem_def.mp hx] at hclosing'
        obtain rfl := Option.some.inj hclosing'
        exact provides_sessionListener hstep h hexpecting hnext hclosing hy hs hsocket
      · have hclosing' := (off_step_session hstep hnext hclosing hy).1
        rw [Option.mem_def.mp hx] at hclosing'
        cases hclosing'

/-- While steps meet the condition, the sessions on a closing socket are provided for. -/
theorem expecting_step (hstep : st.step e = some st') (h : st.RoomsHold)
    (hexpecting : st.Expecting) (hcomplete : ClosesComplete st e) : st'.Expecting := by
  by_cases hnext : e.event = .nextListener
  · exact expecting_nextListener hstep h hexpecting hcomplete hnext
  · by_cases hclose : ∃ x, e.event = .close x
    · obtain ⟨c, hclose⟩ := hclose
      exact expecting_close hstep hcomplete hclose
    · rw [AcceptorState.Expecting, closing_step hstep (not_exists.mp hclose) hnext]
      intro x hx
      cases hx

/-- A step that meets the condition and ends a `close` event has torn down all sessions on the
socket. -/
theorem closesTearDown_step (h : st.RoomsHold) (hexpecting : st.Expecting)
    (hcomplete : ClosesComplete st e) : ClosesTearDown st e := by
  intro st' hstep hnone x hx s hs hsocket
  obtain ⟨c, listeners⟩ := x
  have hclosing : st.closing = some (c, listeners) := hx
  have hnext : e.event = .nextListener := by
    by_contra hne
    rw [closing_eq_none (step_enabled hstep) hne] at hclosing
    cases hclosing
  cases listeners with
  | nil => exact gone_of_expecting hstep h hexpecting hnext hclosing hs hsocket
  | cons l ls =>
    cases l with
    | acceptor =>
      have hclosing' := (cleared_step_acceptor hstep hnext hclosing).1
      rw [hnone] at hclosing'
      cases hclosing'
    | session y =>
      by_cases hy : y ∈ (st.meets e).completes .nextListener
      · have hclosing' := (cleared_step_session hstep hnext hclosing hy).1
        rw [hnone] at hclosing'
        cases hclosing'
      · exact gone_of_thrown hstep h hcomplete hnext hclosing hy hs hsocket

/-! ## Runs -/

theorem roomsHold_of_reached (h : acceptor.Reached guard st) : st.RoomsHold := by
  induction h with
  | init hinit =>
    obtain ⟨config, rfl⟩ := hinit
    exact ⟨_, .empty⟩
  | step _ _ hstep ih => exact roomsHold_step hstep ih

theorem expecting_of_reached (h : acceptor.Reached ClosesComplete st) : st.Expecting := by
  induction h with
  | init hinit =>
    obtain ⟨config, rfl⟩ := hinit
    intro x hx
    cases hx
  | step hreached hcomplete hstep ih =>
    exact expecting_step hstep (roomsHold_of_reached hreached) ih hcomplete

/-- In a run whose steps meet the conditions, every logout and every close of a socket tears the
sessions down. A registered session is torn down by a logout exactly when no user code throws
before the removal of its entry. -/
theorem tearsDown_guarded (config : AcceptorConfig) (es : List Step) :
    (acceptor.Guarded LogoutsComplete (.new config) es →
      acceptor.Guarded LogoutsTearDown (.new config) es) ∧
    (acceptor.Guarded ClosesComplete (.new config) es →
      acceptor.Guarded ClosesTearDown (.new config) es) ∧
    acceptor.Guarded TearsDownRegistered (.new config) es := by
  refine ⟨fun hes => ?_, fun hes => ?_, ?_⟩
  · refine System.Reached.guarded_imp (fun st e hreached hcomplete => ?_) (.init ⟨config, rfl⟩) hes
    exact logoutsTearDown_step hreached (roomsHold_of_reached hreached) hcomplete
  · refine System.Reached.guarded_imp (fun st e hreached hcomplete => ?_) (.init ⟨config, rfl⟩) hes
    exact closesTearDown_step (roomsHold_of_reached hreached) (expecting_of_reached hreached)
      hcomplete
  · refine System.Reached.guarded_imp (P := fun _ _ => True) (fun st e hreached _ => ?_)
      (.init ⟨config, rfl⟩) (System.guarded_of_forall (fun _ _ => trivial) es)
    exact tearsDownRegistered_step hreached (roomsHold_of_reached hreached)

/-- Three clients log on and join a room; one of them is logged out, the second one logs off, and
the connection of the third one closes. -/
def departureSteps : List Step :=
  (Event.connect (js "client:1")).calmly :: (Event.connect (js "client:2")).calmly ::
    (Event.connect (js "client:3")).calmly :: logonSteps 0 (js "ALICE") ++
    logonSteps 1 (js "BOB") ++ logonSteps 2 (js "CAROL") ++
    ([Event.join 0 (js "prices"), .join 1 (js "prices"), .join 2 (js "prices"),
      .logout 0 .undefined, .resume 0, .data 1 (clientBytes (js "5") (js "BOB") []), .resume 0,
      .resume 0, .close 2, .nextListener, .nextListener, .nextListener].map Event.calmly)

/-- All three sessions are torn down. -/
theorem tearsDown_departures :
    (∃ st ∈ acceptor.exec (broker 0) departureSteps, ∀ s < 3, st.gone s = true) ∧
      acceptor.Guarded LogoutsTearDown (broker 0) departureSteps ∧
      acceptor.Guarded ClosesTearDown (broker 0) departureSteps := by
  obtain ⟨hlogouts, hcloses, _⟩ := tearsDown_guarded (broker 0).config departureSteps
  exact ⟨by decide +kernel, hlogouts (by decide +kernel), hcloses (by decide +kernel)⟩

/-- An acceptor with a handler for logouts. -/
def handledBroker : AcceptorState := .new
  { (broker 0).config with metadata := [⟨none, some 0, none, none, none⟩] }

/-- A client logs on. -/
def attendedSteps : List Step :=
  (Event.connect (js "client:1")).calmly :: logonSteps 0 (js "CLIENT")

/-- The client logs off, and the handler throws. -/
def throwingStep : Step :=
  ⟨.data 0 (clientBytes (js "5") (js "CLIENT") []),
    { Input.calm with thrown := [some (js "handler failed")] }⟩

/-- The session is still LOGGED_ON, with its timers, its entry and an open socket. -/
theorem not_logoutsTearDown_throwing :
    ¬ acceptor.Guarded LogoutsTearDown handledBroker (attendedSteps ++ [throwingStep]) := by
  have hrun : ∃ st ∈ acceptor.exec handledBroker attendedSteps, ∃ st' ∈ st.step throwingStep,
      0 ∈ (st.meets throwingStep).endsEarly throwingStep.event ∧
        (st'.sessions 0).state = .loggedOn ∧ (st'.sessions 0).heartbeatTimer = true ∧
        st'.registry.get? (st'.sessions 0).sessionId = some 0 ∧ st'.writable 0 = true := by
    decide +kernel
  obtain ⟨st, hst, st', hst', hends, _, _, hentry, _⟩ := hrun
  intro hguarded
  exact ((System.guarded_append hguarded hst).1 st' hst' 0 hends).1.entry hentry

end NestQuickfix.Acceptor
