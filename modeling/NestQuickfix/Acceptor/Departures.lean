import NestQuickfix.Acceptor.Applications
import NestQuickfix.Acceptor.Finality
import NestQuickfix.Acceptor.Logouts
import NestQuickfix.Acceptor.Memberships

/-!
# Departures from rooms

`removeSession` makes an id leave all its rooms, but only an id that has an entry. So a session
without an entry, such as that of an initiator or one that was refused, is still in its rooms
after its logout.
-/

namespace NestQuickfix.Acceptor

open Lib Lib.Exec

variable {ι : Type} [DecidableEq ι]

/-! ## Departures -/

/-- What is recorded of sessions and rooms. -/
inductive Attendance where
  /-- A session with this id has called `join`. -/
  | joined (sessionId : JSString)
  /-- The `logout` of a session with this id has resolved, or its Logout has been handled. -/
  | ended (sessionId : JSString)
  deriving DecidableEq

/-- What a step adds to the record. -/
def AcceptorState.attendance (st : AcceptorState) (e : Step) : List Attendance :=
  match e.event with
  | .join s _ => [.joined (st.sessions s).sessionId]
  | event => ((st.meets e).finishes event).map fun s => .ended (st.sessions s).sessionId

/-- An application with the record of its sessions and rooms. -/
abbrev attendedApplication : System (Application ι × List Attendance) (ι × Step) :=
  application.recorded fun app e => (app.manager e.1).attendance e.2

/-- An id is in no room, in either index. -/
structure Vacated (rooms : RoomManager) (sessionId : JSString) : Prop where
  getSessionRooms : rooms.getSessionRooms sessionId = []
  getSessionsInRoom : ∀ roomId, sessionId ∉ rooms.getSessionsInRoom roomId

/-- A session that has ended is in no room, unless a session with its id has joined one
since. -/
def EndedVacate (p : Application ι × List Attendance) : Prop :=
  ∀ sessionId later, .ended sessionId :: later <:+ p.2 → .joined sessionId ∉ later →
    Vacated p.1.rooms sessionId

/-- The condition: when the logout of a session comes to its end, it is a session of an acceptor
whose id has an entry in the session manager, or its id is in no room. -/
def EndsRegistered (p : Application ι × List Attendance) (e : ι × Step) : Prop :=
  p.1.enabled e = true → ∀ s ∈ ((p.1.manager e.1).meets e.2).finishes e.2.event,
    p.1.role e.1 = .acceptor ∧
        (p.1.manager e.1).registry.has ((p.1.manager e.1).sessions s).sessionId = true ∨
      p.1.rooms.getSessionRooms ((p.1.manager e.1).sessions s).sessionId = []

/-! ## Rooms in one step -/

section Rooms

variable {st st' : AcceptorState} {e : Step} {a : Act} {roomId sessionId : JSString} {s : ℕ}

theorem getSessionRooms_eq_nil_iff {rooms : RoomManager} {R : JSString → JSString → Prop}
    (h : rooms.Holds R) :
    rooms.getSessionRooms sessionId = [] ↔ ∀ roomId, ¬ R roomId sessionId := by
  rw [List.eq_nil_iff_forall_not_mem]
  exact forall_congr' fun roomId => not_congr (h.mem_getSessionRooms roomId sessionId)

theorem vacated_iff {rooms : RoomManager} {R : JSString → JSString → Prop} (h : rooms.Holds R) :
    Vacated rooms sessionId ↔ ∀ roomId, ¬ R roomId sessionId := by
  constructor
  · exact fun hvacated => (getSessionRooms_eq_nil_iff h).mp hvacated.getSessionRooms
  · intro hnone
    refine ⟨(getSessionRooms_eq_nil_iff h).mpr hnone, fun roomId hmem => hnone roomId ?_⟩
    exact (h.mem_getSessionsInRoom roomId sessionId).mp hmem

/-- The first index is enough to see that an id is in no room. -/
theorem vacated_iff_getSessionRooms (h : st.RoomsHold) :
    Vacated st.rooms sessionId ↔ st.rooms.getSessionRooms sessionId = [] := by
  obtain ⟨R, hR⟩ := h
  rw [vacated_iff hR, getSessionRooms_eq_nil_iff hR]

/-- The removal of an entry puts no id into a room. -/
theorem vacated_withoutEntry (h : st.RoomsHold) (hvacated : Vacated st.rooms sessionId)
    (id : JSString) : Vacated (st.withoutEntry id).rooms sessionId := by
  obtain ⟨R, hR⟩ := h
  unfold AcceptorState.withoutEntry
  split
  · rw [vacated_iff (hR.leaveAllRooms id)]
    exact fun roomId hin => (vacated_iff hR).mp hvacated roomId hin.1
  · exact hvacated

/-- Only `join` puts an id into a room. -/
theorem vacated_act (h : st.RoomsHold) (hjoin : ∀ s roomId, a ≠ .join s roomId)
    (hvacated : Vacated st.rooms sessionId) : Vacated (a.apply st).rooms sessionId := by
  cases a with
  | remove id => exact vacated_withoutEntry h hvacated id
  | removeId s =>
    simp only [Act.apply, AcceptorState.withoutEnded]
    split
    · exact hvacated
    · exact vacated_withoutEntry h hvacated _
  | join s roomId => exact absurd rfl (hjoin s roomId)
  | leave s roomId =>
    obtain ⟨R, hR⟩ := h
    refine (vacated_iff (hR.leave roomId _)).mpr fun r hin => ?_
    exact (vacated_iff hR).mp hvacated r hin.1
  | _ =>
    rw [rooms_apply rfl]
    exact hvacated

/-- Along the end of a logout, an id has its entry or is in no room. -/
def AcceptorState.Leaving (st : AcceptorState) (sessionId : JSString) : Prop :=
  st.registry.has sessionId = true ∨ Vacated st.rooms sessionId

theorem leaving_withoutEntry (h : st.RoomsHold) (hleaving : st.Leaving sessionId) (id : JSString) :
    (st.withoutEntry id).Leaving sessionId := by
  rcases hleaving with hhas | hvacated
  · by_cases hid : id = sessionId
    · subst id
      obtain ⟨R, hR⟩ := h
      refine Or.inr ?_
      rw [AcceptorState.withoutEntry, if_pos hhas]
      exact (vacated_iff (hR.leaveAllRooms sessionId)).mpr fun _ hin => hin.2 rfl
    · refine Or.inl ?_
      rw [AcceptorState.withoutEntry_eq, OrderedMap.has_eq_isSome, OrderedMap.get?_erase,
        if_neg (Ne.symm hid), ← OrderedMap.has_eq_isSome]
      exact hhas
  · exact Or.inr (vacated_withoutEntry h hvacated id)

/-- Entries are only given up together with the rooms, unless the registry is emptied. -/
theorem leaving_act (h : st.RoomsHold) (hjoin : ∀ s roomId, a ≠ .join s roomId)
    (hclear : a ≠ .clear) (hleaving : st.Leaving sessionId) : (a.apply st).Leaving sessionId := by
  cases a with
  | remove id => exact leaving_withoutEntry h hleaving id
  | removeId s =>
    simp only [Act.apply, AcceptorState.withoutEnded]
    split
    · exact hleaving
    · exact leaving_withoutEntry h hleaving _
  | clear => exact absurd rfl hclear
  | register s =>
    refine hleaving.imp_left fun hhas => ?_
    rw [OrderedMap.has_iff] at hhas ⊢
    exact OrderedMap.mem_keys_set.mpr (Or.inr hhas)
  | _ =>
    refine hleaving.imp (fun hhas => ?_) fun hvacated => vacated_act h hjoin hvacated
    rw [registry_apply rfl]
    exact hhas

/-- An id without an entry is left in its rooms. -/
theorem isInRoom_act (h : st.RoomsHold) (hregister : ∀ s, a ≠ .register s)
    (hleave : ∀ s roomId, a ≠ .leave s roomId)
    (hin : st.registry.has sessionId = false ∧ st.rooms.isInRoom roomId sessionId = true) :
    (a.apply st).registry.has sessionId = false ∧
      (a.apply st).rooms.isInRoom roomId sessionId = true := by
  obtain ⟨habsent, hin⟩ := hin
  have hwithout : ∀ id, (st.withoutEntry id).registry.has sessionId = false ∧
      (st.withoutEntry id).rooms.isInRoom roomId sessionId = true := by
    intro id
    refine ⟨?_, isInRoom_withoutEntry h hin ?_⟩
    · rw [AcceptorState.withoutEntry_eq, OrderedMap.has_eq_isSome, OrderedMap.get?_erase]
      split
      · rfl
      · rwa [← OrderedMap.has_eq_isSome]
    · rintro hhas rfl
      rw [hhas] at habsent
      cases habsent
  cases a with
  | remove id => exact hwithout id
  | removeId s =>
    simp only [Act.apply, AcceptorState.withoutEnded]
    split
    · exact ⟨habsent, hin⟩
    · exact hwithout _
  | register s => exact absurd rfl (hregister s)
  | clear => exact ⟨rfl, hin⟩
  | join s room =>
    obtain ⟨R, hR⟩ := h
    refine ⟨habsent, ((hR.join room _).isInRoom_iff roomId sessionId).mpr (Or.inr ?_)⟩
    exact (hR.isInRoom_iff roomId sessionId).mp hin
  | leave s room => exact absurd rfl (hleave s room)
  | _ =>
    rw [registry_apply rfl, rooms_apply rfl]
    exact ⟨habsent, hin⟩

theorem roomsHold_step (hstep : st.step e = some st') (h : st.RoomsHold) : st'.RoomsHold :=
  step_keeps hstep (P := AcceptorState.RoomsHold) h fun _ a _ _ hrooms => hrooms.act a

/-- An id in no room stays out of all rooms until a session with this id joins one. -/
theorem vacated_step (hstep : st.step e = some st') (h : st.RoomsHold)
    (hjoin : ∀ s roomId, e.event = .join s roomId → (st.sessions s).sessionId ≠ sessionId)
    (hvacated : Vacated st.rooms sessionId) : Vacated st'.rooms sessionId := by
  by_cases hevent : ∃ s roomId, e.event = .join s roomId
  · obtain ⟨s, roomId, hevent⟩ := hevent
    have hafter := after_of_step hstep
    rw [hevent] at hafter
    obtain ⟨R, hR⟩ := h
    rw [← hafter]
    refine (vacated_iff (hR.join roomId _)).mpr fun r hin => ?_
    rcases hin with ⟨_, rfl⟩ | hin
    · exact hjoin s roomId hevent rfl
    · exact (vacated_iff hR).mp hvacated r hin
  · refine (step_keeps hstep (P := fun st1 => st1.RoomsHold ∧ Vacated st1.rooms sessionId)
      ⟨h, hvacated⟩ fun st1 a _ ha hkept => ?_).2
    refine ⟨hkept.1.act a, vacated_act hkept.1 ?_ hkept.2⟩
    rintro s roomId rfl
    exact hevent ⟨s, roomId, ha⟩

/-- An event that ends sessions logs none on. -/
theorem logsOn_of_ends {event : Event} (h : s ∈ st.ends event) :
    st.logsOn event = none ∧ st.responds event = none := by
  have hrevives : ∀ x, x ∉ st.revives event := by
    intro x hx
    rw [ends_of_revives hx] at h
    cases h
  constructor
  · exact Option.eq_none_iff_forall_ne_some.mpr fun x hx =>
      hrevives x (List.mem_append_left _ (Option.mem_toList.mpr hx))
  · exact Option.eq_none_iff_forall_ne_some.mpr fun x hx =>
      hrevives x (List.mem_append_right _ (Option.mem_toList.mpr hx))

/-- An event in which sessions end, or a `close` listener is called. -/
def AcceptorState.EndsSessions (st : AcceptorState) (e : Event) : Prop :=
  e = .nextListener ∨ ∃ s, s ∈ st.ends e

/-- What such an event does not do: nobody joins, leaves a single room or registers, and no
state but DISCONNECTED is assigned. -/
structure Act.Ending (a : Act) : Prop where
  join : ∀ s roomId, a ≠ .join s roomId
  leave : ∀ s roomId, a ≠ .leave s roomId
  register : ∀ s, a ≠ .register s
  clear : a ≠ .clear
  setState : ∀ s state, a = .setState s state → state = .disconnected

theorem ending_of_causedBy (h : (st.meets e).EndsSessions e.event)
    (ha : a.CausedBy (st.meets e) e.event) : a.Ending := by
  rcases e with ⟨event, input⟩
  rcases h with rfl | ⟨s, hs⟩
  · refine ⟨?_, ?_, ?_, ?_, ?_⟩
    · rintro x roomId rfl
      cases ha
    · rintro x roomId rfl
      cases ha
    · rintro x rfl
      cases ha
    · rintro rfl
      obtain ⟨_, _, _, hresume, _⟩ := ha
      cases hresume
    · rintro x state rfl
      rcases ha with ⟨_, hlogsOn⟩ | ⟨_, hresponds⟩ | ⟨hstate, _⟩
      · cases hlogsOn
      · cases hresponds
      · exact hstate
  · obtain ⟨hlogsOn, hresponds⟩ := logsOn_of_ends hs
    have hevent : ∀ event', event = event' → (st.meets ⟨event, input⟩).ends event' ≠ [] := by
      rintro _ rfl hnil
      rw [hnil] at hs
      cases hs
    refine ⟨?_, ?_, ?_, ?_, ?_⟩
    · rintro x roomId rfl
      exact hevent _ ha rfl
    · rintro x roomId rfl
      exact hevent _ ha rfl
    · rintro x rfl
      exact absurd ((mayStore_of_ends hs).symm.trans ha) (Option.some_ne_none x).symm
    · rintro rfl
      obtain ⟨k, stopping, i, hi, hf⟩ := ha
      refine hevent _ hi ?_
      simp [AcceptorState.ends, AcceptorState.incoming, hf]
    · rintro x state rfl
      rcases ha with ⟨_, hx⟩ | ⟨_, hx⟩ | ⟨hstate, _⟩
      · exact absurd (hlogsOn.symm.trans hx) (Option.some_ne_none x).symm
      · exact absurd (hresponds.symm.trans hx) (Option.some_ne_none x).symm
      · exact hstate

/-- An event that ends a session leaves an id without an entry in its rooms. -/
theorem isInRoom_step (hstep : st.step e = some st') (h : st.RoomsHold)
    (hends : s ∈ (st.meets e).ends e.event) (habsent : st.registry.has sessionId = false)
    (hin : st.rooms.isInRoom roomId sessionId = true) :
    st'.rooms.isInRoom roomId sessionId = true := by
  refine (step_keeps hstep (P := fun st1 => st1.RoomsHold ∧ st1.registry.has sessionId = false ∧
    st1.rooms.isInRoom roomId sessionId = true) ⟨h, habsent, hin⟩ fun st1 a _ ha hkept => ?_).2.2
  have hending := ending_of_causedBy (Or.inr ⟨s, hends⟩) ha
  exact ⟨hkept.1.act a, isInRoom_act hkept.1 hending.register hending.leave hkept.2⟩

/-- An event that ends a session takes away entries together with their rooms only. -/
theorem leaving_step (hstep : st.step e = some st') (h : st.RoomsHold)
    (hends : (st.meets e).EndsSessions e.event) (hleaving : st.Leaving sessionId) :
    st'.Leaving sessionId := by
  refine (step_keeps hstep (P := fun st1 => st1.RoomsHold ∧ st1.Leaving sessionId)
    ⟨h, hleaving⟩ fun st1 a _ ha hkept => ?_).2
  have hending := ending_of_causedBy hends ha
  exact ⟨hkept.1.act a, leaving_act hkept.1 hending.join hending.clear hkept.2⟩

/-- When the logout of a session comes to its end, its id is in no room afterwards exactly if
it had an entry or was in no room. -/
theorem vacated_iff_leaving (hstep : st.step e = some st') (h : st.RoomsHold)
    (hs : s ∈ (st.meets e).finishes e.event) :
    Vacated st'.rooms (st.sessions s).sessionId ↔ st.Leaving (st.sessions s).sessionId := by
  have hends : s ∈ (st.meets e).ends e.event := ends_of_finishes hs
  constructor
  · intro hvacated
    by_contra hleaving
    rw [AcceptorState.Leaving, not_or] at hleaving
    obtain ⟨habsent, hin⟩ := hleaving
    obtain ⟨R, hR⟩ := h
    obtain ⟨R', hR'⟩ := roomsHold_step hstep ⟨R, hR⟩
    rw [vacated_iff hR, not_forall_not] at hin
    obtain ⟨roomId, hroom⟩ := hin
    have hstays := isInRoom_step hstep ⟨R, hR⟩ hends (Bool.eq_false_iff.mpr habsent)
      ((hR.isInRoom_iff roomId _).mpr hroom)
    exact (vacated_iff hR').mp hvacated roomId ((hR'.isInRoom_iff roomId _).mp hstays)
  · intro hleaving
    refine (leaving_step hstep h (Or.inr ⟨s, hends⟩) hleaving).resolve_left fun hhas => ?_
    have habsent := absent_of_finishes hs
    rw [after_of_step hstep] at habsent
    exact Bool.false_ne_true (habsent.symm.trans hhas)

end Rooms

/-! ## Runs -/

section Runs

variable {st : AcceptorState} {e : ι × Step} {p p' : Application ι × List Attendance}

/-- What is recorded is a call of `join` or the end of a logout. -/
theorem mem_attendance {e : Step} {x : Attendance} (h : x ∈ st.attendance e) :
    (∃ s roomId, e.event = .join s roomId ∧ x = .joined (st.sessions s).sessionId) ∨
      ∃ s ∈ (st.meets e).finishes e.event, x = .ended (st.sessions s).sessionId := by
  unfold AcceptorState.attendance at h
  split at h
  · next s roomId hevent => exact Or.inl ⟨s, roomId, hevent, List.mem_singleton.mp h⟩
  · obtain ⟨s, hs, rfl⟩ := List.mem_map.mp h
    exact Or.inr ⟨s, hs, rfl⟩

/-- In the end of a logout nothing else is recorded. -/
theorem attendance_of_finishes {e : Step} {s : ℕ} (hs : s ∈ (st.meets e).finishes e.event) :
    .ended (st.sessions s).sessionId ∈ st.attendance e ∧
      ∀ sessionId, .joined sessionId ∉ st.attendance e := by
  rcases e with ⟨event, input⟩
  have hother : ∀ x ∈ ((st.meets ⟨event, input⟩).finishes event).map fun s =>
      Attendance.ended (st.sessions s).sessionId, ∀ sessionId, x ≠ .joined sessionId := by
    rintro x hx sessionId rfl
    obtain ⟨_, _, heq⟩ := List.mem_map.mp hx
    cases heq
  cases event with
  | join x roomId => cases ends_of_finishes hs
  | _ =>
    exact ⟨List.mem_map.mpr ⟨s, hs, rfl⟩, fun sessionId hmem => hother _ hmem sessionId rfl⟩

/-- The session of an initiator never has an entry, so the condition is met when every session
whose logout comes to its end has an entry or is in no room. -/
theorem endsRegistered_iff {guard : Application ι → ι × Step → Prop}
    (h : application.Reached guard p.1) (hhold : (p.1.manager e.1).RoomsHold) :
    EndsRegistered p e ↔ (p.1.enabled e = true →
      ∀ s ∈ ((p.1.manager e.1).meets e.2).finishes e.2.event,
        (p.1.manager e.1).Leaving ((p.1.manager e.1).sessions s).sessionId) := by
  refine imp_congr_right fun _ => forall₂_congr fun s _ =>
    or_congr (and_iff_right_of_imp fun hhas => ?_) (vacated_iff_getSessionRooms hhold).symm
  cases hrole : p.1.role e.1 with
  | acceptor => rfl
  | initiator =>
    have hregistry : (p.1.manager e.1).registry = .empty :=
      (unregistered_of_reached h hrole).registry
    rw [hregistry] at hhas
    cases hhas

/-- If all who have ended have vacated their rooms, they have after a step exactly if it meets the
condition. -/
theorem endedVacate_step_iff {guard : Application ι → ι × Step → Prop}
    (hreached : application.Reached guard p.1) (hhold : (p.1.manager e.1).RoomsHold)
    (h : EndedVacate p) (hstep : attendedApplication.step p e = some p') :
    EndedVacate p' ↔ EndsRegistered p e := by
  obtain ⟨happ, hrecord⟩ := System.recorded_step.mp hstep
  obtain ⟨_, henabled, st', hst', _, hshared⟩ := manager_step happ
  rw [endsRegistered_iff hreached hhold]
  constructor
  · intro hvacate _ s hs
    obtain ⟨hended, hjoined⟩ := attendance_of_finishes hs
    obtain ⟨l, later, hsplit⟩ := List.append_of_mem hended
    have hvacated := hvacate ((p.1.manager e.1).sessions s).sessionId later
      ⟨p.2 ++ l, by rw [hrecord, hsplit, List.append_assoc]⟩ fun hmem => ?_
    · rwa [hshared, vacated_iff_leaving hst' hhold hs] at hvacated
    · refine hjoined ((p.1.manager e.1).sessions s).sessionId ?_
      rw [hsplit]
      exact List.mem_append_right l (List.mem_cons_of_mem _ hmem)
  · intro hregistered sessionId later hsuffix hjoin
    rw [hrecord] at hsuffix
    rw [hshared]
    rcases System.cons_suffix_append hsuffix with hmem | ⟨later', rfl, hsuffix'⟩
    · rcases mem_attendance hmem with ⟨_, _, _, heq⟩ | ⟨s, hs, heq⟩
      · cases heq
      · obtain rfl := Attendance.ended.inj heq
        exact (vacated_iff_leaving hst' hhold hs).mpr (hregistered henabled s hs)
    · have hvacated := h sessionId later' hsuffix' fun hmem => hjoin (List.mem_append_left _ hmem)
      refine vacated_step hst' hhold ?_ hvacated
      rintro s roomId hevent rfl
      refine hjoin (List.mem_append_right _ ?_)
      rw [AcceptorState.attendance, hevent]
      exact List.mem_singleton_self _

/-- In every run of any number of acceptors and initiators, the sessions that have ended are out
of their rooms after every step exactly if every step meets the condition. -/
theorem endedVacate_guarded_iff (role : ι → Role) (config : ι → AcceptorConfig)
    (es : List (ι × Step)) : attendedApplication.Guarded
      (fun p e => ∀ p' ∈ attendedApplication.step p e, EndedVacate p') (.new role config, []) es ↔
    attendedApplication.Guarded EndsRegistered (.new role config, []) es := by
  have happlication : ∀ p : Application ι × List Attendance,
      attendedApplication.Reached EndsRegistered p → application.Reached (fun _ _ => True) p.1 :=
    fun p hp => .of_recorded (fun _ _ _ => trivial) hp
  have hkept : ∀ p : Application ι × List Attendance,
      attendedApplication.Reached EndsRegistered p → (∃ R, p.1.rooms.Holds R) ∧ EndedVacate p := by
    intro p hp
    induction hp with
    | init hinit =>
      obtain ⟨⟨role, config, happ⟩, hrecord⟩ := hinit
      refine ⟨?_, fun sessionId later hsuffix => ?_⟩
      · rw [happ]
        exact ⟨_, RoomManager.Holds.empty⟩
      · rw [hrecord] at hsuffix
        cases List.suffix_nil.mp hsuffix
    | @step p p' e hp hguard hstep ih =>
      obtain ⟨_, _, st', hst', _, hshared⟩ := manager_step (System.recorded_step.mp hstep).1
      have hhold : (p.1.manager e.1).RoomsHold := ih.1
      refine ⟨?_, (endedVacate_step_iff (happlication p hp) hhold ih.2 hstep).mpr hguard⟩
      rw [hshared]
      exact roomsHold_step hst' hhold
  refine System.Reached.guarded_iff (fun p e hp => ?_) (.init ⟨⟨role, config, rfl⟩, rfl⟩)
  have hhold : (p.1.manager e.1).RoomsHold := (hkept p hp).1
  constructor
  · intro hvacate henabled
    obtain ⟨app', happ⟩ := exists_application_step henabled
    have hstep : attendedApplication.step p e =
        some (app', p.2 ++ (p.1.manager e.1).attendance e.2) :=
      System.recorded_step.mpr ⟨happ, rfl⟩
    exact (endedVacate_step_iff (happlication p hp) hhold (hkept p hp).2 hstep).mp
      (hvacate _ hstep) henabled
  · exact fun hregistered p' hstep =>
      (endedVacate_step_iff (happlication p hp) hhold (hkept p hp).2 hstep).mpr hregistered

end Runs

/-! ## A refused session -/

/-- An acceptor that serves one session is full when a second client logs on. Its session is
refused but goes on; it joins a room and is logged out. -/
def refusedSteps : List Step :=
  (Event.connect (js "client:1")).calmly :: (Event.connect (js "client:2")).calmly ::
    logonSteps 0 (js "ALICE") ++ logonSteps 1 (js "BOB") ++
    [Event.join 1 (js "prices"), .logout 1 .undefined, .resume 0].map Event.calmly

/-- After its logout the refused session is still in the room. -/
theorem not_endedVacate_refused :
    ∃ p ∈ attendedApplication.exec (.new (fun _ : Unit => .acceptor) fun _ => (broker 1).config, [])
      (refusedSteps.map fun e => ((), e)),
      p.2 = [.joined (js "BOB->BROKER"), .ended (js "BOB->BROKER")] ∧
        js "BOB->BROKER" ∈ p.1.rooms.getSessionsInRoom (js "prices") ∧ ¬ EndedVacate p := by
  have hrun : ∃ p ∈ attendedApplication.exec
      (.new (fun _ : Unit => .acceptor) fun _ => (broker 1).config, [])
      (refusedSteps.map fun e => ((), e)),
      p.2 = [.joined (js "BOB->BROKER"), .ended (js "BOB->BROKER")] ∧
        js "BOB->BROKER" ∈ p.1.rooms.getSessionsInRoom (js "prices") := by decide +kernel
  obtain ⟨p, hp, hrecord, hin⟩ := hrun
  refine ⟨p, hp, hrecord, hin, fun h => ?_⟩
  have hvacated := h (js "BOB->BROKER") [] ⟨[.joined (js "BOB->BROKER")], hrecord.symm⟩ (by simp)
  exact hvacated.getSessionsInRoom _ hin

end NestQuickfix.Acceptor
