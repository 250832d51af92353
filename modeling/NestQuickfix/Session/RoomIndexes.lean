import Mathlib.Data.List.Induction
import NestQuickfix.Session.Rooms

/-!
# The two room indexes agree

A room manager stores one relation twice. An index represents a relation when its
sets list exactly the related members and none of them is empty. Adding and removing
a pair keep both indexes in step, and `leaveAllRooms` takes the pairs of a session
out of both, although it shrinks the set that it goes through.
-/

namespace NestQuickfix

open Lib

/-- The members an index lists under a key. -/
def listed (index : OrderedMap JSString IdSet) (key : JSString) : List JSString :=
  ((index.get? key).getD .empty).keys

/-- An index represents a relation: its sets list the related members, and no
empty set is stored. -/
structure Represents (index : OrderedMap JSString IdSet) (R : JSString → JSString → Prop) :
    Prop where
  mem_iff : ∀ key member, member ∈ listed index key ↔ R key member
  nonempty : ∀ key members, index.get? key = some members → members.keys ≠ []

namespace Represents

variable {index : OrderedMap JSString IdSet} {R : JSString → JSString → Prop}

/-- The index without sets represents the empty relation. -/
theorem empty : Represents .empty (fun _ _ => False) where
  mem_iff key member := by simp [listed]
  nonempty key members h := by simp at h

/-- Related members have a stored set. -/
theorem exists_set (h : Represents index R) {key member : JSString} (hR : R key member) :
    ∃ members, index.get? key = some members ∧ member ∈ members.keys := by
  have hmem := (h.mem_iff key member).mpr hR
  rw [listed] at hmem
  cases hget : index.get? key with
  | none => simp [hget] at hmem
  | some members =>
    rw [hget] at hmem
    exact ⟨members, rfl, hmem⟩

/-- The members of a stored set are related to its key. -/
theorem related (h : Represents index R) {key member : JSString} {members : IdSet}
    (hget : index.get? key = some members) : member ∈ members.keys ↔ R key member := by
  rw [← h.mem_iff, listed, hget]
  rfl

/-- Adding a member adds the pair. -/
theorem insertInto (h : Represents index R) (key member : JSString) :
    Represents (RoomManager.insertInto index key member)
      (fun k m => (k = key ∧ m = member) ∨ R k m) where
  mem_iff k m := by
    have hold := h.mem_iff k m
    rw [RoomManager.insertInto, listed, OrderedMap.get?_set]
    by_cases hk : k = key
    · subst hk
      rw [listed] at hold
      simp [hold]
    · rw [listed] at hold
      simp [hk, hold]
  nonempty k members hget := by
    rw [RoomManager.insertInto, OrderedMap.get?_set] at hget
    by_cases hk : k = key
    · rw [if_pos hk, Option.some_inj] at hget
      have hmem : member ∈ members.keys := by
        rw [← hget]
        exact OrderedMap.mem_keys_set.mpr (Or.inl rfl)
      exact List.ne_nil_of_mem hmem
    · rw [if_neg hk] at hget
      exact h.nonempty k members hget

end Represents

/-- The members of a set without one of them. -/
theorem mem_keys_erase {members : IdSet} {member m : JSString} :
    m ∈ (members.erase member).keys ↔ m ≠ member ∧ m ∈ members.keys := by
  simp only [OrderedMap.keys, List.mem_map, OrderedMap.mem_entries_erase]
  constructor
  · rintro ⟨e, ⟨hne, he⟩, rfl⟩
    exact ⟨hne, e, he, rfl⟩
  · rintro ⟨hne, e, he, rfl⟩
    exact ⟨e, ⟨hne, he⟩, rfl⟩

/-- A set of size zero has no members. -/
theorem keys_eq_nil_iff {members : IdSet} : members.keys = [] ↔ members.size = 0 := by
  simp [OrderedMap.keys, OrderedMap.size]

namespace Represents

variable {index : OrderedMap JSString IdSet} {R : JSString → JSString → Prop}

/-- What is stored after the removal of a member: the rest of its set, unless that is empty. -/
theorem get?_removeFrom (key member k : JSString) :
    (RoomManager.removeFrom index key member).get? k =
      if k = key then
        (index.get? key).bind fun members =>
          if (members.erase member).size = 0 then none else some (members.erase member)
      else index.get? k := by
  rw [RoomManager.removeFrom]
  cases hget : index.get? key with
  | none =>
    by_cases hk : k = key
    · rw [if_pos hk, hk, hget]
      rfl
    · rw [if_neg hk]
  | some members =>
    by_cases hsize : (members.erase member).size = 0
    · simp [hsize, OrderedMap.get?_erase]
    · simp [hsize, OrderedMap.get?_set]

/-- Removing a member removes the pair. -/
theorem removeFrom (h : Represents index R) (key member : JSString) :
    Represents (RoomManager.removeFrom index key member)
      (fun k m => R k m ∧ ¬ (k = key ∧ m = member)) where
  mem_iff k m := by
    rw [listed, get?_removeFrom]
    by_cases hk : k = key
    · subst hk
      cases hget : index.get? k with
      | none =>
        have hnone : ¬ R k m := by
          intro hR
          obtain ⟨members, hsome, -⟩ := h.exists_set hR
          rw [hget] at hsome
          cases hsome
        simp [hnone]
      | some members =>
        have hrelated : m ∈ (members.erase member).keys ↔ R k m ∧ ¬ (k = k ∧ m = member) := by
          rw [mem_keys_erase, h.related hget]
          tauto
        rw [← hrelated, if_pos rfl, Option.bind_some]
        by_cases hsize : (members.erase member).size = 0
        · rw [if_pos hsize, keys_eq_nil_iff.mpr hsize]
          simp
        · rw [if_neg hsize]
          rfl
    · rw [if_neg hk, ← listed, h.mem_iff]
      simp [hk]
  nonempty k members hget := by
    rw [get?_removeFrom] at hget
    by_cases hk : k = key
    · rw [if_pos hk] at hget
      obtain ⟨old, -, hold⟩ := Option.bind_eq_some_iff.mp hget
      by_cases hsize : (old.erase member).size = 0
      · simp [hsize] at hold
      · rw [if_neg hsize, Option.some_inj] at hold
        rw [← hold]
        exact fun hnil => hsize (keys_eq_nil_iff.mp hnil)
    · rw [if_neg hk] at hget
      exact h.nonempty k members hget

/-- A represented relation may be described in another way. -/
theorem congr {S : JSString → JSString → Prop} (h : Represents index R)
    (hRS : ∀ key member, R key member ↔ S key member) : Represents index S where
  mem_iff key member := (h.mem_iff key member).trans (hRS key member)
  nonempty := h.nonempty

end Represents

namespace RoomManager

/-- Both indexes represent the same relation of rooms and sessions. -/
structure Holds (m : RoomManager) (R : JSString → JSString → Prop) : Prop where
  rooms : Represents m.rooms R
  sessionRooms : Represents m.sessionRooms (fun s r => R r s)

namespace Holds

variable {m : RoomManager} {R : JSString → JSString → Prop}

/-- The room manager without members. -/
theorem empty : Holds .empty (fun _ _ => False) :=
  ⟨Represents.empty, Represents.empty⟩

/-- The relation may be described in another way. -/
theorem congr {S : JSString → JSString → Prop} (h : m.Holds R)
    (hRS : ∀ r s, R r s ↔ S r s) : m.Holds S :=
  ⟨h.rooms.congr hRS, h.sessionRooms.congr fun s r => hRS r s⟩

/-- Joining adds one pair to both indexes. -/
theorem join (h : m.Holds R) (roomId sessionId : JSString) :
    (m.join roomId sessionId).Holds (fun r s => (r = roomId ∧ s = sessionId) ∨ R r s) := by
  refine ⟨h.rooms.insertInto roomId sessionId, ?_⟩
  apply (h.sessionRooms.insertInto sessionId roomId).congr
  intro s r
  rw [and_comm]

/-- Leaving takes one pair out of both indexes. -/
theorem leave (h : m.Holds R) (roomId sessionId : JSString) :
    (m.leave roomId sessionId).Holds (fun r s => R r s ∧ ¬ (r = roomId ∧ s = sessionId)) := by
  refine ⟨h.rooms.removeFrom roomId sessionId, ?_⟩
  apply (h.sessionRooms.removeFrom sessionId roomId).congr
  intro s r
  rw [and_comm (a := s = sessionId)]

/-- Leaving a list of rooms one after the other. -/
theorem leave_foldl (h : m.Holds R) (roomIds : List JSString) (sessionId : JSString) :
    (roomIds.foldl (fun m roomId => m.leave roomId sessionId) m).Holds
      (fun r s => R r s ∧ ¬ (r ∈ roomIds ∧ s = sessionId)) := by
  induction roomIds generalizing m R with
  | nil => exact h.congr (by simp)
  | cons roomId roomIds ih =>
    apply (ih (h.leave roomId sessionId)).congr
    intro r s
    simp only [List.mem_cons]
    tauto

/-- Leaving all rooms takes the pairs of a session out of both indexes. -/
theorem leaveAllRooms (h : m.Holds R) (sessionId : JSString) :
    (m.leaveAllRooms sessionId).Holds (fun r s => R r s ∧ s ≠ sessionId) := by
  rw [RoomManager.leaveAllRooms]
  cases hget : m.sessionRooms.get? sessionId with
  | none =>
    apply h.congr
    intro r s
    refine ⟨fun hR => ⟨hR, ?_⟩, And.left⟩
    rintro rfl
    obtain ⟨members, hsome, -⟩ := h.sessionRooms.exists_set hR
    rw [hget] at hsome
    cases hsome
  | some rooms =>
    apply (h.leave_foldl rooms.keys sessionId).congr
    intro r s
    have hrelated : r ∈ rooms.keys ↔ R r sessionId := h.sessionRooms.related hget
    rw [hrelated]
    constructor
    · rintro ⟨hR, hnot⟩
      refine ⟨hR, ?_⟩
      rintro rfl
      exact hnot ⟨hR, rfl⟩
    · rintro ⟨hR, hne⟩
      exact ⟨hR, fun hboth => hne hboth.2⟩

/-- The sessions of a room are those related to it. -/
theorem mem_getSessionsInRoom (h : m.Holds R) (r s : JSString) :
    s ∈ m.getSessionsInRoom r ↔ R r s :=
  h.rooms.mem_iff r s

/-- The rooms of a session are those related to it. -/
theorem mem_getSessionRooms (h : m.Holds R) (r s : JSString) :
    r ∈ m.getSessionRooms s ↔ R r s :=
  h.sessionRooms.mem_iff s r

/-- The membership test decides the relation. -/
theorem isInRoom_iff (h : m.Holds R) (r s : JSString) : m.isInRoom r s = true ↔ R r s := by
  rw [← h.mem_getSessionsInRoom, isInRoom, getSessionsInRoom]
  cases m.rooms.get? r with
  | none => simp
  | some sessions => exact OrderedMap.has_iff

end Holds

end RoomManager

namespace RoomManager

/-- A pass over the rooms of a session that looks at the set anew before each visit,
as iterating over a set that is being changed does. -/
def leaveEach (sessionId : JSString) : List JSString → RoomManager → RoomManager
  | [], m => m
  | roomId :: roomIds, m =>
    if roomId ∈ m.getSessionRooms sessionId then
      leaveEach sessionId roomIds (m.leave roomId sessionId)
    else leaveEach sessionId roomIds m

end RoomManager

/-- The keys of a set without one of them. -/
theorem keys_erase (members : IdSet) (member : JSString) :
    (members.erase member).keys = members.keys.filter fun m => m ≠ member := by
  unfold OrderedMap.keys OrderedMap.erase
  rw [List.filter_map]
  rfl

theorem listed_removeFrom (index : OrderedMap JSString IdSet) (key member k : JSString) :
    listed (RoomManager.removeFrom index key member) k =
      if k = key then (listed index k).filter fun m => m ≠ member else listed index k := by
  unfold listed
  rw [Represents.get?_removeFrom]
  by_cases hk : k = key
  · rw [if_pos hk, if_pos hk, hk]
    cases index.get? key with
    | none => rfl
    | some members =>
      rw [Option.bind_some, Option.getD_some, ← keys_erase]
      by_cases hsize : (members.erase member).size = 0
      · rw [if_pos hsize, keys_eq_nil_iff.mpr hsize]
        rfl
      · rw [if_neg hsize]
        rfl
  · rw [if_neg hk, if_neg hk]

namespace RoomManager

variable {m : RoomManager} {R : JSString → JSString → Prop}

theorem getSessionsInRoom_leave_foldl (m : RoomManager) (roomIds : List JSString)
    (sessionId r : JSString) :
    (roomIds.foldl (fun m roomId => m.leave roomId sessionId) m).getSessionsInRoom r =
      if r ∈ roomIds then (m.getSessionsInRoom r).filter fun t => t ≠ sessionId
      else m.getSessionsInRoom r := by
  induction roomIds generalizing m with
  | nil => rfl
  | cons roomId roomIds ih =>
    have hleave : (m.leave roomId sessionId).getSessionsInRoom r =
        if r = roomId then (m.getSessionsInRoom r).filter fun t => t ≠ sessionId
        else m.getSessionsInRoom r := listed_removeFrom m.rooms roomId sessionId r
    rw [List.foldl_cons, ih, hleave]
    by_cases hr : r = roomId
    · simp [hr]
    · simp [hr]

theorem getSessionRooms_leave_foldl (m : RoomManager) (roomIds : List JSString)
    {sessionId t : JSString} (ht : t ≠ sessionId) :
    (roomIds.foldl (fun m roomId => m.leave roomId sessionId) m).getSessionRooms t =
      m.getSessionRooms t := by
  induction roomIds generalizing m with
  | nil => rfl
  | cons roomId roomIds ih =>
    have hleave : (m.leave roomId sessionId).getSessionRooms t =
        if t = sessionId then (m.getSessionRooms t).filter fun r => r ≠ roomId
        else m.getSessionRooms t := listed_removeFrom m.sessionRooms sessionId roomId t
    rw [List.foldl_cons, ih, hleave, if_neg ht]

/-- The rooms keep the other sessions in their order. -/
theorem Holds.getSessionsInRoom_leaveAllRooms (h : m.Holds R) (sessionId r : JSString) :
    (m.leaveAllRooms sessionId).getSessionsInRoom r =
      (m.getSessionsInRoom r).filter fun t => t ≠ sessionId := by
  have hother (hr : ¬ R r sessionId) :
      m.getSessionsInRoom r = (m.getSessionsInRoom r).filter fun t => t ≠ sessionId := by
    refine (List.filter_eq_self.mpr fun t ht => decide_eq_true ?_).symm
    rintro rfl
    exact hr ((h.mem_getSessionsInRoom r t).mp ht)
  unfold RoomManager.leaveAllRooms
  cases hget : m.sessionRooms.get? sessionId with
  | none =>
    refine hother fun hr => ?_
    obtain ⟨members, hsome, -⟩ := h.sessionRooms.exists_set hr
    rw [hget] at hsome
    cases hsome
  | some rooms =>
    dsimp only
    rw [getSessionsInRoom_leave_foldl]
    split
    · rfl
    · next hr => exact hother fun hR => hr ((h.sessionRooms.related hget).mpr hR)

theorem getSessionRooms_leaveAllRooms (m : RoomManager) {sessionId t : JSString}
    (ht : t ≠ sessionId) : (m.leaveAllRooms sessionId).getSessionRooms t = m.getSessionRooms t := by
  unfold leaveAllRooms
  split
  · rfl
  · exact getSessionRooms_leave_foldl m _ ht

end RoomManager

/-- A map has a key exactly when it lists members for it. -/
theorem Represents.has_iff {index : OrderedMap JSString IdSet} {R : JSString → JSString → Prop}
    (h : Represents index R) (key : JSString) : index.has key = true ↔ listed index key ≠ [] := by
  rw [OrderedMap.has_eq_isSome]
  unfold listed
  cases hget : index.get? key with
  | none => simp
  | some members => simp [h.nonempty key members hget]

/-- The calls that change a room manager. -/
inductive RoomCall where
  | join (roomId sessionId : JSString)
  | leave (roomId sessionId : JSString)
  | leaveAllRooms (sessionId : JSString)

namespace RoomCall

/-- The effect of a call. -/
def run (m : RoomManager) : RoomCall → RoomManager
  | .join roomId sessionId => m.join roomId sessionId
  | .leave roomId sessionId => m.leave roomId sessionId
  | .leaveAllRooms sessionId => m.leaveAllRooms sessionId

/-- A call by which a session leaves a room. -/
def Leaves (roomId sessionId : JSString) : RoomCall → Prop
  | .join _ _ => False
  | .leave r s => r = roomId ∧ s = sessionId
  | .leaveAllRooms s => s = sessionId

/-- A room manager after calls, from an empty one on. -/
def runAll (calls : List RoomCall) : RoomManager := calls.foldl run .empty

/-- The session joined the room in one of the calls and did not leave it in a later one. -/
def JoinedNotLeft (calls : List RoomCall) (roomId sessionId : JSString) : Prop :=
  ∃ earlier later, calls = earlier ++ .join roomId sessionId :: later ∧
    ∀ call ∈ later, ¬ call.Leaves roomId sessionId

/-- Who is in after one more call. -/
theorem joinedNotLeft_append (calls : List RoomCall) (call : RoomCall) (r s : JSString) :
    JoinedNotLeft (calls ++ [call]) r s ↔
      call = .join r s ∨ JoinedNotLeft calls r s ∧ ¬ call.Leaves r s := by
  constructor
  · rintro ⟨earlier, later, heq, hstay⟩
    rcases List.eq_nil_or_concat later with rfl | ⟨later, last, rfl⟩
    · obtain ⟨-, hcall⟩ := List.append_inj' heq rfl
      exact Or.inl (List.cons.inj hcall).1
    · right
      rw [List.concat_eq_append, ← List.cons_append, ← List.append_assoc] at heq
      obtain ⟨hcalls, hlast⟩ := List.append_inj' heq rfl
      obtain ⟨rfl, -⟩ := List.cons.inj hlast
      refine ⟨⟨earlier, later, hcalls, fun c hc => hstay c ?_⟩, hstay call ?_⟩
      · simp [hc]
      · simp
  · rintro (rfl | ⟨⟨earlier, later, rfl, hstay⟩, hcall⟩)
    · exact ⟨calls, [], rfl, by simp⟩
    · refine ⟨earlier, later ++ [call], by simp, fun c hc => ?_⟩
      rcases List.mem_append.mp hc with hold | hnew
      · exact hstay c hold
      · rw [List.mem_singleton.mp hnew]
        exact hcall

/-- One call takes the pairs joined and not left to those after it. -/
theorem holds_run {m : RoomManager} {calls : List RoomCall} (call : RoomCall)
    (h : m.Holds (JoinedNotLeft calls)) : (call.run m).Holds (JoinedNotLeft (calls ++ [call])) := by
  cases call with
  | join roomId sessionId =>
    apply (h.join roomId sessionId).congr
    intro r s
    rw [joinedNotLeft_append]
    simp [Leaves, eq_comm]
  | leave roomId sessionId =>
    apply (h.leave roomId sessionId).congr
    intro r s
    rw [joinedNotLeft_append]
    simp [Leaves, eq_comm]
  | leaveAllRooms sessionId =>
    apply (h.leaveAllRooms sessionId).congr
    intro r s
    rw [joinedNotLeft_append]
    simp [Leaves, eq_comm]

/-- After any calls both indexes represent the pairs joined and not left since. -/
theorem holds_runAll (calls : List RoomCall) : (runAll calls).Holds (JoinedNotLeft calls) := by
  induction calls using List.reverseRecOn with
  | nil => exact RoomManager.Holds.empty.congr (by simp [JoinedNotLeft])
  | append_singleton calls call ih =>
    rw [runAll, List.foldl_append]
    exact holds_run call ih

/-- After any calls the two indexes agree and store no empty set, and the queries
return, without duplicates, exactly the pairs joined and not left since. -/
theorem indexes_agree (calls : List RoomCall) :
    (∀ r s, (∃ sessions, (runAll calls).rooms.get? r = some sessions ∧ s ∈ sessions.keys) ↔
      ∃ rooms, (runAll calls).sessionRooms.get? s = some rooms ∧ r ∈ rooms.keys) ∧
    (∀ r sessions, (runAll calls).rooms.get? r = some sessions → sessions.keys ≠ []) ∧
    (∀ s rooms, (runAll calls).sessionRooms.get? s = some rooms → rooms.keys ≠ []) ∧
    (∀ r, ((runAll calls).getSessionsInRoom r).Nodup) ∧
    (∀ s, ((runAll calls).getSessionRooms s).Nodup) ∧
    ∀ r s, (s ∈ (runAll calls).getSessionsInRoom r ↔ JoinedNotLeft calls r s) ∧
      (r ∈ (runAll calls).getSessionRooms s ↔ JoinedNotLeft calls r s) ∧
      ((runAll calls).isInRoom r s = true ↔ JoinedNotLeft calls r s) := by
  have h := holds_runAll calls
  refine ⟨fun r s => ?_, h.rooms.nonempty, h.sessionRooms.nonempty,
    fun r => OrderedMap.keys_nodup _, fun s => OrderedMap.keys_nodup _, fun r s =>
      ⟨h.mem_getSessionsInRoom r s, h.mem_getSessionRooms r s, h.isInRoom_iff r s⟩⟩
  constructor
  · rintro ⟨sessions, hget, hmem⟩
    exact h.sessionRooms.exists_set ((h.rooms.related hget).mp hmem)
  · rintro ⟨rooms, hget, hmem⟩
    exact h.rooms.exists_set ((h.sessionRooms.related hget).mp hmem)

end RoomCall

end NestQuickfix
