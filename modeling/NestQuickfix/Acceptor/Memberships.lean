import NestQuickfix.Acceptor.Tasks
import NestQuickfix.Session.RoomIndexes

/-!
# Memberships of running sessions

Rooms know sessions by their ids, and `removeSession` makes an id leave all its rooms. So a
running session keeps its rooms as long as no other session with its id is removed, and no
other session leaves a room under this id.
-/

namespace NestQuickfix.Acceptor

open Lib Lib.Exec

/-- What is recorded of a run about rooms. -/
inductive RoomFact where
  /-- The acceptor has created a session for a Logon. -/
  | created (s : ℕ)
  | joined (s : ℕ) (roomId : JSString)
  | left (s : ℕ) (roomId : JSString)
  deriving DecidableEq

/-- What a step adds to the record. -/
def AcceptorState.roomFacts (st : AcceptorState) (e : Step) : List RoomFact :=
  match e.event with
  | .join s roomId => [.joined s roomId]
  | .leave s roomId => [.left s roomId]
  | .resume i =>
    match st.tasks[i]? with
    | some (.validated _ _ _ .valid) => [.created st.nextSession]
    | _ => []
  | _ => []

/-- An acceptor with the record of its rooms. -/
abbrev roomedAcceptor : System (AcceptorState × List RoomFact) Step :=
  acceptor.recorded AcceptorState.roomFacts

/-- The sessions with the rooms they have joined and not left since, after one more fact. -/
def RoomFact.update (members : List (ℕ × JSString)) : RoomFact → List (ℕ × JSString)
  | .created _ => members
  | .joined s roomId => (s, roomId) :: members
  | .left s roomId => members.filter fun member => member ≠ (s, roomId)

/-- The sessions with the rooms they have joined and not left since. -/
def memberships (facts : List RoomFact) : List (ℕ × JSString) := facts.foldl RoomFact.update []

/-- The memberships of sessions that were created for a Logon and have not been disconnected. -/
def AcceptorState.belonging (st : AcceptorState) (facts : List RoomFact) : List (ℕ × JSString) :=
  (memberships facts).filter fun member =>
    .created member.1 ∈ facts ∧ .ran member.1 .disconnected ∉ st.trace

/-- Every session that was created for a Logon and has not been disconnected is in the rooms
it has joined and not left since. -/
def RoomsSurvive (st : AcceptorState) (facts : List RoomFact) : Prop :=
  ∀ s roomId, .created s ∈ facts → .ran s .disconnected ∉ st.trace →
    (s, roomId) ∈ memberships facts → st.rooms.isInRoom roomId (st.sessions s).sessionId = true

/-- The id that a user passes to `removeSession`. -/
def Event.removedId : Event → Option JSString
  | .removeSession sessionId => some sessionId
  | _ => none

/-- The session and the room of a call of `leave`. -/
def Event.leaving : Event → Option (ℕ × JSString)
  | .leave s roomId => some (s, roomId)
  | _ => none

/-- No running session that is in a room has the given id, apart from those excepted. -/
def AcceptorState.Unused (st : AcceptorState) (facts : List RoomFact) (sessionId : JSString)
    (excepted : ℕ × JSString → Bool) : Prop :=
  ∀ member ∈ st.belonging facts, excepted member = false →
    (st.sessions member.1).sessionId ≠ sessionId

instance : ∀ (st : AcceptorState) (facts : List RoomFact) (sessionId : JSString)
    (excepted : ℕ × JSString → Bool), Decidable (st.Unused facts sessionId excepted) :=
  fun st facts sessionId excepted => List.decidableBAll (fun member => excepted member = false →
    (st.sessions member.1).sessionId ≠ sessionId) (st.belonging facts)

/-- The condition: when an entry is removed, or a session leaves a room, no other running
session with the same id is in a room (in that room). -/
structure SparesRooms (p : AcceptorState × List RoomFact) (e : Step) : Prop where
  ended : ∀ x ∈ (p.1.meets e).completes e.event,
    p.1.registry.has (p.1.sessions x).sessionId = true →
      p.1.Unused p.2 (p.1.sessions x).sessionId fun member => member.1 = x
  removed : ∀ sessionId ∈ e.event.removedId, p.1.registry.has sessionId = true →
    p.1.Unused p.2 sessionId fun _ => false
  left : ∀ l ∈ e.event.leaving, p.1.Unused p.2 (p.1.sessions l.1).sessionId
    fun member => member.1 = l.1 || member.2 ≠ l.2

instance : ∀ (p : AcceptorState × List RoomFact) (e : Step), Decidable (SparesRooms p e) :=
  fun p e =>
  have : Decidable (∀ x ∈ (p.1.meets e).completes e.event,
      p.1.registry.has (p.1.sessions x).sessionId = true →
        p.1.Unused p.2 (p.1.sessions x).sessionId fun member => member.1 = x) :=
    List.decidableBAll (fun x => p.1.registry.has (p.1.sessions x).sessionId = true →
      p.1.Unused p.2 (p.1.sessions x).sessionId fun member => member.1 = x) _
  decidable_of_iff ((∀ x ∈ (p.1.meets e).completes e.event,
      p.1.registry.has (p.1.sessions x).sessionId = true →
        p.1.Unused p.2 (p.1.sessions x).sessionId fun member => member.1 = x) ∧
    (∀ sessionId ∈ e.event.removedId, p.1.registry.has sessionId = true →
      p.1.Unused p.2 sessionId fun _ => false) ∧
    ∀ l ∈ e.event.leaving, p.1.Unused p.2 (p.1.sessions l.1).sessionId
      fun member => member.1 = l.1 || member.2 ≠ l.2)
    ⟨fun ⟨h1, h2, h3⟩ => ⟨h1, h2, h3⟩, fun ⟨h1, h2, h3⟩ => ⟨h1, h2, h3⟩⟩

/-! ## The record -/

variable {guard : AcceptorState → Step → Prop} {st st' : AcceptorState} {e : Step}
  {facts : List RoomFact} {s : ℕ} {roomId : JSString}

theorem mem_belonging {member : ℕ × JSString} : member ∈ st.belonging facts ↔
    member ∈ memberships facts ∧ .created member.1 ∈ facts ∧
      .ran member.1 .disconnected ∉ st.trace := by
  rw [AcceptorState.belonging, List.mem_filter, decide_eq_true_iff]

/-- Only a call of `join` adds a membership. -/
theorem mem_memberships_of (hjoin : e.event ≠ .join s roomId)
    (h : (s, roomId) ∈ memberships (facts ++ st.roomFacts e)) :
    (s, roomId) ∈ memberships facts ∧ e.event ≠ .leave s roomId := by
  rcases e with ⟨event, input⟩
  dsimp only at hjoin
  unfold memberships AcceptorState.roomFacts at h
  rw [List.foldl_append] at h
  cases event with
  | join x room =>
    rcases List.mem_cons.mp h with heq | h
    · cases heq
      exact absurd rfl hjoin
    · exact ⟨h, by simp⟩
  | leave x room =>
    obtain ⟨hmem, hne⟩ := List.mem_filter.mp h
    refine ⟨hmem, fun heq => ?_⟩
    cases heq
    exact of_decide_eq_true hne rfl
  | resume i =>
    refine ⟨?_, by simp⟩
    dsimp only at h
    split at h <;> exact h
  | _ => exact ⟨h, by simp⟩

theorem created_of_mem (h : .created s ∈ facts ++ st.roomFacts e) :
    .created s ∈ facts ∨ s = st.nextSession ∧ st.makes e.event = true := by
  rcases List.mem_append.mp h with h | h
  · exact Or.inl h
  · refine Or.inr ?_
    unfold AcceptorState.roomFacts at h
    rcases e with ⟨event, input⟩
    cases event with
    | resume i =>
      dsimp only at h
      split at h
      · next hf =>
        cases List.mem_singleton.mp h
        simp [AcceptorState.makes, hf]
      · cases h
    | join x room => cases List.mem_singleton.mp h
    | leave x room => cases List.mem_singleton.mp h
    | _ => cases h

/-! ## Rooms along a step -/

/-- The rooms of all sessions have been joined and left by them. -/
def AcceptorState.RoomsHold (st : AcceptorState) : Prop := ∃ R, st.rooms.Holds R

theorem roomsHold_withoutEntry (h : st.RoomsHold) (sessionId : JSString) :
    (st.withoutEntry sessionId).RoomsHold := by
  obtain ⟨R, hR⟩ := h
  unfold AcceptorState.withoutEntry
  split
  · exact ⟨_, hR.leaveAllRooms sessionId⟩
  · exact ⟨R, hR⟩

theorem AcceptorState.RoomsHold.act (h : st.RoomsHold) (a : Act) : (a.apply st).RoomsHold := by
  cases hchanges : a.changesRooms with
  | false =>
    unfold AcceptorState.RoomsHold
    rwa [rooms_apply hchanges]
  | true =>
    obtain ⟨R, hR⟩ := h
    cases a with
    | remove sessionId => exact roomsHold_withoutEntry ⟨R, hR⟩ sessionId
    | removeId s =>
      unfold Act.apply AcceptorState.withoutEnded
      dsimp only
      split
      · exact ⟨R, hR⟩
      · exact roomsHold_withoutEntry ⟨R, hR⟩ _
    | join s roomId => exact ⟨_, hR.join roomId _⟩
    | leave s roomId => exact ⟨_, hR.leave roomId _⟩
    | _ => cases hchanges

/-- The removal of an entry keeps the memberships of other ids. -/
theorem isInRoom_withoutEntry (h : st.RoomsHold) {id sessionId : JSString}
    (hin : st.rooms.isInRoom roomId id = true)
    (hne : st.registry.has sessionId = true → id ≠ sessionId) :
    (st.withoutEntry sessionId).rooms.isInRoom roomId id = true := by
  obtain ⟨R, hR⟩ := h
  unfold AcceptorState.withoutEntry
  split
  · next hhas =>
    rw [(hR.leaveAllRooms sessionId).isInRoom_iff]
    exact ⟨(hR.isInRoom_iff roomId id).mp hin, hne hhas⟩
  · exact hin

/-- Along a step, session `s` with its timers is still in a room. -/
structure StillIn (st : AcceptorState) (e : Step) (s : ℕ) (roomId : JSString)
    (st' : AcceptorState) : Prop where
  nextSession : st.nextSession ≤ st'.nextSession
  sessionId : ∀ x < st.nextSession, (st'.sessions x).sessionId = (st.sessions x).sessionId
  registry : st.mayStore e.event = none →
    ∀ id x, st'.registry.get? id = some x → st.registry.get? id = some x
  rooms : st'.RoomsHold
  isIn : (st'.sessions s).heartbeatTimer = true →
    st'.rooms.isInRoom roomId (st.sessions s).sessionId = true

/-- Every act of a step that meets the condition keeps a running session in its rooms. -/
theorem StillIn.act {a : Act} (h : StillIn st e s roomId st') (hreached : acceptor.Reached guard st)
    (henabled : st.enabled e.event = true) (hguard : SparesRooms (st, facts) e)
    (hs : s < st.nextSession) (hbelongs : (s, roomId) ∈ st.belonging facts)
    (hleave : e.event ≠ .leave s roomId) (ha : a.CausedBy (st.meets e) e.event) :
    StillIn st e s roomId (a.apply st') := by
  obtain ⟨hnext, hid, hregistry, hrooms, hin⟩ := h
  have hs' : s < st'.nextSession := Nat.lt_of_lt_of_le hs hnext
  have hhas : ∀ id, st.mayStore e.event = none → st'.registry.has id = true →
      st.registry.has id = true := by
    intro id hnone hhas
    rw [OrderedMap.has_eq_isSome, Option.isSome_iff_exists] at hhas ⊢
    obtain ⟨x, hx⟩ := hhas
    exact ⟨x, hregistry hnone id x hx⟩
  refine ⟨hnext.trans (nextSession_le_apply a st'), fun x hx => ?_, fun hnone id x hx => ?_,
    hrooms.act a, fun htimer => ?_⟩
  · rw [Session.sessionId, (session_apply a (Nat.lt_of_lt_of_le hx hnext)).1]
    exact hid x hx
  · refine hregistry hnone id x (get?_of_apply ?_ hx)
    rintro y rfl
    have hstore : st.mayStore e.event = some y := ha
    rw [hnone] at hstore
    cases hstore
  · have hrunning : (st'.sessions s).heartbeatTimer = true := by
      by_cases hdisconnect : a = .disconnect s
      · subst hdisconnect
        rw [timer_disconnect] at htimer
        cases htimer
      · rwa [timer_apply hdisconnect hs'] at htimer
    have hold := hin hrunning
    cases a with
    | remove sessionId =>
      have hevent : e.event = .removeSession sessionId := ha
      refine isInRoom_withoutEntry hrooms hold fun h => ?_
      refine hguard.removed sessionId (by simp [hevent, Event.removedId]) ?_ _ hbelongs rfl
      exact hhas sessionId (by rw [hevent]; rfl) h
    | removeId x =>
      have hends : x ∈ (st.meets e).ends e.event := ends_of_completes ha
      have hx : x < st.nextSession := lt_nextSession_of_ends hreached henabled hends
      have hnone : (st.meets e).mayStore e.event = none := mayStore_of_ends hends
      unfold Act.apply AcceptorState.withoutEnded
      dsimp only
      split
      · exact hold
      · next hended =>
        refine isInRoom_withoutEntry hrooms hold fun h => ?_
        rw [hid x hx] at h ⊢
        refine hguard.ended x ha (hhas _ hnone h) _ hbelongs (decide_eq_false ?_)
        rintro rfl
        exact hended hrunning
    | join x room =>
      obtain ⟨R, hR⟩ := hrooms
      refine ((hR.join room _).isInRoom_iff roomId _).mpr (Or.inr ?_)
      exact (hR.isInRoom_iff roomId _).mp hold
    | leave x room =>
      have hevent : e.event = .leave x room := ha
      have hx : x < st.nextSession := by
        rw [hevent] at henabled
        exact of_decide_eq_true (Bool.and_eq_true_iff.mp henabled).2
      obtain ⟨R, hR⟩ := hrooms
      refine ((hR.leave room _).isInRoom_iff roomId _).mpr
        ⟨(hR.isInRoom_iff roomId _).mp hold, ?_⟩
      rintro ⟨rfl, hsame⟩
      rw [hid x hx] at hsame
      have hne : s ≠ x := by
        rintro rfl
        exact hleave hevent
      exact hguard.left (x, roomId) (by simp [hevent, Event.leaving]) _ hbelongs (by simp [hne]) hsame
    | _ =>
      rw [rooms_apply rfl]
      exact hold

/-! ## Runs -/

/-- The record is about created sessions, and running sessions are in their rooms. -/
structure Housed (st : AcceptorState) (facts : List RoomFact) : Prop where
  rooms : st.RoomsHold
  timers : TimersRun st
  created : ∀ s, .created s ∈ facts → s < st.nextSession
  members : ∀ member ∈ memberships facts, member.1 < st.nextSession
  survive : RoomsSurvive st facts

namespace Housed

/-- Every step that meets the condition keeps the rooms of running sessions. -/
theorem survive_step (h : Housed st facts) (hreached : acceptor.Reached guard st)
    (hguard : SparesRooms (st, facts) e) (hstep : st.step e = some st') (htimers : TimersRun st') :
    RoomsSurvive st' (facts ++ st.roomFacts e) := by
  intro s roomId hcreated hran hmember
  have henabled := step_enabled hstep
  by_cases hjoin : e.event = .join s roomId
  · have hafter := after_of_step hstep
    rw [hjoin] at hafter
    obtain ⟨R, hR⟩ := h.rooms
    rw [← hafter]
    exact ((hR.join roomId _).isInRoom_iff roomId _).mpr (Or.inl ⟨rfl, rfl⟩)
  · obtain ⟨hmember, hleave⟩ := mem_memberships_of hjoin hmember
    have hs : s < st.nextSession := h.members _ hmember
    have hcreated : .created s ∈ facts := by
      rcases created_of_mem hcreated with hcreated | ⟨hnew, _⟩
      · exact hcreated
      · omega
    have htrace : .ran s .disconnected ∉ st.trace := fun hold => hran <|
      step_keeps hstep (P := fun st1 => .ran s .disconnected ∈ st1.trace) hold
        fun st1 a _ _ => mem_trace_apply a
    have hbelongs : (s, roomId) ∈ st.belonging facts := mem_belonging.mpr ⟨hmember, hcreated, htrace⟩
    have hstart : StillIn st e s roomId (st.meets e) :=
      ⟨Nat.le_refl _, fun _ _ => rfl, fun _ _ _ => id, h.rooms,
        fun _ => h.survive s roomId hcreated htrace hmember⟩
    have hend : StillIn st e s roomId st' := step_keeps hstep hstart fun st1 a _ ha hstill =>
      hstill.act hreached henabled hguard hs hbelongs hleave ha
    rw [hend.sessionId s hs]
    refine hend.isIn ?_
    by_contra htimer
    refine hran (htimers s (Nat.lt_of_lt_of_le hs hend.nextSession) ?_)
    exact Bool.eq_false_iff.mpr htimer

/-- Every step that meets the condition keeps it. -/
theorem step (h : Housed st facts) (hreached : acceptor.Reached guard st)
    (hguard : SparesRooms (st, facts) e) (hstep : st.step e = some st') :
    Housed st' (facts ++ st.roomFacts e) := by
  have htimers : TimersRun st' :=
    step_keeps hstep (P := TimersRun) h.timers fun _ a _ _ htimers => htimers.act a
  have hle := nextSession_le_step hstep
  refine ⟨step_keeps hstep (P := AcceptorState.RoomsHold) h.rooms fun _ a _ _ hrooms => hrooms.act a,
    htimers, fun s hs => ?_, fun member hmember => ?_, h.survive_step hreached hguard hstep htimers⟩
  · rcases created_of_mem hs with hs | ⟨rfl, hmakes⟩
    · exact Nat.lt_of_lt_of_le (h.created s hs) hle
    · rw [nextSession_step hstep, if_pos hmakes]
      exact Nat.lt_succ_self _
  · obtain ⟨s, roomId⟩ := member
    by_cases hjoin : e.event = .join s roomId
    · have henabled := step_enabled hstep
      rw [hjoin] at henabled
      exact Nat.lt_of_lt_of_le (of_decide_eq_true (Bool.and_eq_true_iff.mp henabled).2) hle
    · exact Nat.lt_of_lt_of_le (h.members _ (mem_memberships_of hjoin hmember).1) hle

end Housed

/-- In every run that meets the condition, a session that was created for a Logon and has not
been disconnected is in the rooms it has joined and not left since. -/
theorem roomsSurvive_of_reached {p : AcceptorState × List RoomFact}
    (h : roomedAcceptor.Reached SparesRooms p) : RoomsSurvive p.1 p.2 := by
  have hhoused : Housed p.1 p.2 := by
    induction h with
    | init hinit =>
      obtain ⟨⟨config, hconfig⟩, hfacts⟩ := hinit
      rw [hconfig, hfacts]
      refine ⟨⟨_, RoomManager.Holds.empty⟩, fun _ hs => ?_, fun _ hs => ?_, fun _ hs => ?_,
        fun _ _ hs => ?_⟩
      all_goals cases hs
    | step hreached hguard hstep ih =>
      obtain ⟨hstep, hfacts⟩ := System.recorded_step.mp hstep
      rw [hfacts]
      have hplain : acceptor.Reached (fun _ _ => True) _ := hreached.of_recorded fun _ _ _ => trivial
      exact ih.step hplain hguard hstep
  exact hhoused.survive

/-- Two clients log on; one of them joins a room, and the other one logs off. -/
def roomSteps : List Step :=
  (Event.connect (js "client:1")).calmly :: (Event.connect (js "client:2")).calmly ::
    logonSteps 0 (js "ALICE") ++ [(Event.join 0 (js "prices")).calmly] ++
    logonSteps 1 (js "BOB") ++
    ([Event.join 1 (js "prices"), .data 1 (clientBytes (js "5") (js "BOB") [])].map Event.calmly)

/-- The session that stays is in its room. -/
theorem roomsSurvive_roomSteps : ∃ p ∈ roomedAcceptor.exec (broker 0, []) roomSteps,
    p.1.belonging p.2 = [(0, js "prices")] ∧ RoomsSurvive p.1 p.2 := by
  have hguarded : roomedAcceptor.Guarded SparesRooms (broker 0, []) roomSteps := by decide +kernel
  have hrun : ∃ p ∈ roomedAcceptor.exec (broker 0, []) roomSteps,
      p.1.belonging p.2 = [(0, js "prices")] := by decide +kernel
  obtain ⟨p, hp, hbelonging⟩ := hrun
  have hinit : roomedAcceptor.Reached SparesRooms (broker 0, []) := .init ⟨⟨_, rfl⟩, rfl⟩
  exact ⟨p, hp, hbelonging, roomsSurvive_of_reached (hinit.exec hguarded hp)⟩

/-- A client logs on a second time and joins a room in its logon handler; then the Logout to
its first session is reported as written. -/
def rejoiningSteps : List Step :=
  (Event.connect (js "client:1")).calmly :: (Event.connect (js "client:2")).calmly ::
    logonSteps 0 (js "CLIENT") ++ ([Event.data 1 (logonBytes (js "CLIENT")), .resume 0, .resume 1,
      .resume 1, .resume 1, .join 1 (js "prices"), .resume 1, .resume 1, .resume 0].map Event.calmly)

/-- The removal of the first session takes the second one out of its room. -/
theorem not_roomsSurvive_rejoining :
    ∃ p ∈ roomedAcceptor.exec (broker 0, []) rejoiningSteps, ¬ RoomsSurvive p.1 p.2 := by
  have hrun : ∃ p ∈ roomedAcceptor.exec (broker 0, []) rejoiningSteps,
      .created 1 ∈ p.2 ∧ .ran 1 .disconnected ∉ p.1.trace ∧
        (1, js "prices") ∈ memberships p.2 ∧
        p.1.rooms.isInRoom (js "prices") (p.1.sessions 1).sessionId = false := by decide +kernel
  obtain ⟨p, hp, hcreated, hran, hmember, hout⟩ := hrun
  refine ⟨p, hp, fun h => ?_⟩
  rw [h 1 _ hcreated hran hmember] at hout
  cases hout

end NestQuickfix.Acceptor
