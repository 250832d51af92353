import Mathlib.Logic.Function.Basic
import NestQuickfix.Lib.Run
import NestQuickfix.Lib.SetData
import NestQuickfix.Session.RoomIndexes

/-!
# The set objects of the rooms

The maps of a room manager hold references to set objects, which are changed in place.
`leaveAllRooms` goes through such an object while every turn of its loop changes the object
and both maps, and the last turn takes the object itself out of its map. Different keys never
share an object, so the objects represent the room manager of the module before, and the loop
ends as its list of rooms says.
-/

namespace NestQuickfix

open Lib

/-- The two maps of a room manager. -/
inductive RoomIndex where
  | rooms
  | sessionRooms
  deriving DecidableEq

/-- The maps of a room manager with the set objects that their values refer to. -/
structure RoomSets where
  index : RoomIndex → OrderedMap JSString ℕ
  sets : ℕ → SetData JSString
  /-- The reference of the next set object. -/
  nextSet : ℕ

namespace RoomSets

/-- A new room manager. -/
def empty : RoomSets := ⟨fun _ => .empty, fun _ => .empty, 0⟩

/-- A map gets a set object for a key that it has none for. -/
def initializeIfNeeded (st : RoomSets) (i : RoomIndex) (key : JSString) : RoomSets :=
  if (st.index i).has key then st
  else
    { index := Function.update st.index i ((st.index i).set key st.nextSet)
      sets := Function.update st.sets st.nextSet .empty
      nextSet := st.nextSet + 1 }

def initializeRoomIfNeeded (st : RoomSets) (roomId : JSString) : RoomSets :=
  st.initializeIfNeeded .rooms roomId

def initializeSessionRoomsIfNeeded (st : RoomSets) (sessionId : JSString) : RoomSets :=
  st.initializeIfNeeded .sessionRooms sessionId

/-- `map.get(key).add(member)`, where the map has the key. -/
def addTo (st : RoomSets) (i : RoomIndex) (key member : JSString) : RoomSets :=
  match (st.index i).get? key with
  | none => st
  | some ref => { st with sets := Function.update st.sets ref ((st.sets ref).add member) }

/-- Adds a session to a room. -/
def join (st : RoomSets) (roomId sessionId : JSString) : RoomSets :=
  let st := st.initializeRoomIfNeeded roomId
  let st := st.initializeSessionRoomsIfNeeded sessionId
  let st := st.addTo .rooms roomId sessionId
  st.addTo .sessionRooms sessionId roomId

/-- Removes a member from the set object of a key, and the entry with its last member. -/
def removeFrom (st : RoomSets) (i : RoomIndex) (key member : JSString) : RoomSets :=
  match (st.index i).get? key with
  | none => st
  | some ref =>
    let members := (st.sets ref).delete member
    { st with
      sets := Function.update st.sets ref members
      index :=
        if members.size = 0 then Function.update st.index i ((st.index i).erase key)
        else st.index }

def removeFromRoom (st : RoomSets) (roomId sessionId : JSString) : RoomSets :=
  st.removeFrom .rooms roomId sessionId

def removeRoomFromSession (st : RoomSets) (roomId sessionId : JSString) : RoomSets :=
  st.removeFrom .sessionRooms sessionId roomId

/-- Removes a session from a room. -/
def leave (st : RoomSets) (roomId sessionId : JSString) : RoomSets :=
  (st.removeFromRoom roomId sessionId).removeRoomFromSession roomId sessionId

/-- Removes a session from all its rooms; `none` if the loop takes more turns. -/
def leaveAllRooms (turns : ℕ) (st : RoomSets) (sessionId : JSString) : Option RoomSets :=
  match (st.index .sessionRooms).get? sessionId with
  | none => some st
  | some rooms =>
    SetData.forEach (fun st => st.sets rooms) (fun st roomId => st.leave roomId sessionId)
      turns 0 st

/-- The members that a map has for a key, as `Array.from` lists them. -/
def members (st : RoomSets) (i : RoomIndex) (key : JSString) : List JSString :=
  (((st.index i).get? key).elim .empty st.sets).elements

def getSessionsInRoom (st : RoomSets) (roomId : JSString) : List JSString :=
  st.members .rooms roomId

def getSessionRooms (st : RoomSets) (sessionId : JSString) : List JSString :=
  st.members .sessionRooms sessionId

def isInRoom (st : RoomSets) (roomId sessionId : JSString) : Bool :=
  match (st.index .rooms).get? roomId with
  | none => false
  | some ref => (st.sets ref).has sessionId

end RoomSets

/-- A room manager as a system; a call may take a number of turns at most. -/
def roomSets : System RoomSets (RoomCall × ℕ) where
  init st := st = .empty
  step
    | st, (.join roomId sessionId, _) => some (st.join roomId sessionId)
    | st, (.leave roomId sessionId, _) => some (st.leave roomId sessionId)
    | st, (.leaveAllRooms sessionId, turns) => st.leaveAllRooms turns sessionId

/-! ## What the objects represent -/

/-- The elements of a set object as a set. -/
def idSet (x : SetData JSString) : IdSet :=
  ⟨x.elements.map fun a => (a, ()), by
    rw [List.map_map]
    exact (List.map_id x.elements).symm ▸ x.nodup⟩

theorem keys_idSet (x : SetData JSString) : (idSet x).keys = x.elements := by
  unfold OrderedMap.keys idSet
  rw [List.map_map]
  exact List.map_id x.elements

theorem size_idSet (x : SetData JSString) : (idSet x).size = x.size := by
  rw [OrderedMap.size_eq_length_keys, keys_idSet]
  rfl

theorem idSet_add (x : SetData JSString) (a : JSString) :
    idSet (x.add a) = (idSet x).set a () := by
  ext1
  have hkeys : ∀ m : IdSet, m.entries = m.keys.map fun b => (b, ()) := fun m => by
    unfold OrderedMap.keys
    rw [List.map_map]
    exact (List.map_id _).symm
  rw [hkeys, hkeys, keys_idSet, OrderedMap.keys_set, keys_idSet, SetData.elements_add]

theorem idSet_delete (x : SetData JSString) (a : JSString) :
    idSet (x.delete a) = (idSet x).erase a := by
  ext1
  unfold idSet OrderedMap.erase
  dsimp only
  rw [SetData.elements_delete, List.filter_map]
  rfl

namespace RoomSets

/-- The references of a room manager have been given out, each to one key of one map. -/
structure WellFormed (st : RoomSets) : Prop where
  bounded : ∀ i key ref, (st.index i).get? key = some ref → ref < st.nextSet
  separate : ∀ i j key key' ref, (st.index i).get? key = some ref →
    (st.index j).get? key' = some ref → i = j ∧ key = key'

/-- The set that a map has for a key. -/
def stored (st : RoomSets) (i : RoomIndex) (key : JSString) : Option IdSet :=
  ((st.index i).get? key).map fun ref => idSet (st.sets ref)

variable {st : RoomSets} {m : RoomManager} {i j : RoomIndex} {key key' member : JSString} {ref : ℕ}

/-- Looking up a key after a change of one map. -/
theorem get?_update (st : RoomSets) (i j : RoomIndex) (changed : OrderedMap JSString ℕ)
    (key : JSString) : (Function.update st.index i changed j).get? key =
      if j = i then changed.get? key else (st.index j).get? key := by
  by_cases hj : j = i
  · subst hj
    rw [Function.update_self, if_pos rfl]
  · rw [Function.update_of_ne hj, if_neg hj]

/-- The references after a map has got a set object for a key. -/
theorem get?_initializeIfNeeded (hkey : (st.index i).get? key = none) :
    ((st.initializeIfNeeded i key).index j).get? key' =
      if j = i ∧ key' = key then some st.nextSet else (st.index j).get? key' := by
  have hhas : ¬ (st.index i).has key = true := by
    rw [OrderedMap.has_eq_isSome, hkey]
    exact Bool.false_ne_true
  unfold initializeIfNeeded
  rw [if_neg hhas]
  dsimp only
  rw [get?_update, OrderedMap.get?_set]
  by_cases hj : j = i
  · simp [hj]
  · simp [hj]

theorem initializeIfNeeded_of_some (hkey : (st.index i).get? key = some ref) :
    st.initializeIfNeeded i key = st := by
  unfold initializeIfNeeded
  rw [OrderedMap.has_eq_isSome, hkey]
  exact if_pos rfl

namespace WellFormed

theorem initializeIfNeeded (h : st.WellFormed) (i : RoomIndex) (key : JSString) :
    (st.initializeIfNeeded i key).WellFormed := by
  cases hkey : (st.index i).get? key with
  | some ref =>
    rw [initializeIfNeeded_of_some hkey]
    exact h
  | none =>
    have hnext : (st.initializeIfNeeded i key).nextSet = st.nextSet + 1 := by
      unfold RoomSets.initializeIfNeeded
      rw [OrderedMap.has_eq_isSome, hkey]
      rfl
    refine ⟨fun j key' ref hget => ?_, fun j j' k k' ref hget hget' => ?_⟩
    · rw [get?_initializeIfNeeded hkey] at hget
      rw [hnext]
      split at hget
      · obtain rfl := Option.some.inj hget
        exact Nat.lt_succ_self _
      · exact Nat.lt_succ_of_lt (h.bounded j key' ref hget)
    · rw [get?_initializeIfNeeded hkey] at hget hget'
      split at hget <;> split at hget'
      · next hk hk' => exact ⟨hk.1.trans hk'.1.symm, hk.2.trans hk'.2.symm⟩
      · obtain rfl := Option.some.inj hget
        exact absurd (h.bounded j' k' _ hget') (Nat.lt_irrefl _)
      · obtain rfl := Option.some.inj hget'
        exact absurd (h.bounded j k _ hget) (Nat.lt_irrefl _)
      · exact h.separate j j' k k' ref hget hget'

theorem addTo (h : st.WellFormed) (i : RoomIndex) (key member : JSString) :
    (st.addTo i key member).WellFormed := by
  unfold RoomSets.addTo
  split
  · exact h
  · exact ⟨h.bounded, h.separate⟩

/-- A removal gives out no reference. -/
theorem get?_of_removeFrom (hget : ((st.removeFrom i key member).index j).get? key' = some ref) :
    (st.index j).get? key' = some ref := by
  unfold RoomSets.removeFrom at hget
  split at hget
  · exact hget
  · dsimp only at hget
    split at hget
    · rw [get?_update, OrderedMap.get?_erase] at hget
      by_cases hj : j = i
      · subst hj
        rw [if_pos rfl] at hget
        split at hget
        · cases hget
        · exact hget
      · rwa [if_neg hj] at hget
    · exact hget

theorem removeFrom (h : st.WellFormed) (i : RoomIndex) (key member : JSString) :
    (st.removeFrom i key member).WellFormed := by
  have hnext : (st.removeFrom i key member).nextSet = st.nextSet := by
    unfold RoomSets.removeFrom
    split <;> rfl
  refine ⟨fun j k ref hget => ?_, fun j j' k k' ref hget hget' => ?_⟩
  · rw [hnext]
    exact h.bounded j k ref (get?_of_removeFrom hget)
  · exact h.separate j j' k k' ref (get?_of_removeFrom hget) (get?_of_removeFrom hget')

theorem join (h : st.WellFormed) (roomId sessionId : JSString) :
    (st.join roomId sessionId).WellFormed :=
  (((h.initializeIfNeeded _ _).initializeIfNeeded _ _).addTo _ _ _).addTo _ _ _

theorem leave (h : st.WellFormed) (roomId sessionId : JSString) :
    (st.leave roomId sessionId).WellFormed :=
  (h.removeFrom _ _ _).removeFrom _ _ _

end WellFormed

/-! ## The sets that are stored -/

/-- Other keys of the maps refer to other objects. -/
theorem WellFormed.sets_update (h : st.WellFormed) (hget : (st.index i).get? key = some ref)
    (x : SetData JSString) : ((st.index j).get? key').map
      (fun ref' => idSet (Function.update st.sets ref x ref')) =
      if j = i ∧ key' = key then some (idSet x) else st.stored j key' := by
  by_cases hkey : j = i ∧ key' = key
  · obtain ⟨rfl, rfl⟩ := hkey
    rw [hget, if_pos ⟨rfl, rfl⟩, Option.map_some, Function.update_self]
  · rw [if_neg hkey]
    unfold stored
    refine Option.map_congr fun ref' hget' => ?_
    have hne : ref' ≠ ref := by
      rintro rfl
      exact hkey (h.separate j i key' key ref' hget' hget)
    rw [Function.update_of_ne hne]

theorem stored_of_none (hget : (st.index i).get? key = none) : st.stored i key = none := by
  unfold stored
  rw [hget]
  rfl

theorem stored_of_some (hget : (st.index i).get? key = some ref) :
    st.stored i key = some (idSet (st.sets ref)) := by
  unfold stored
  rw [hget]
  rfl

/-- What is stored for a key that is not changed. -/
theorem stored_eq_ite {x : Option IdSet} (hx : st.stored i key = x) :
    st.stored j key' = if j = i ∧ key' = key then x else st.stored j key' := by
  split
  · next hkey =>
    obtain ⟨rfl, rfl⟩ := hkey
    exact hx
  · rfl

theorem WellFormed.stored_initializeIfNeeded (h : st.WellFormed) :
    (st.initializeIfNeeded i key).stored j key' =
      if j = i ∧ key' = key then some ((st.stored i key).getD .empty) else st.stored j key' := by
  cases hget : (st.index i).get? key with
  | some ref =>
    rw [initializeIfNeeded_of_some hget]
    refine stored_eq_ite ?_
    rw [stored_of_some hget]
    rfl
  | none =>
    have hsets : (st.initializeIfNeeded i key).sets =
        Function.update st.sets st.nextSet .empty := by
      unfold RoomSets.initializeIfNeeded
      rw [OrderedMap.has_eq_isSome, hget]
      rfl
    rw [stored_of_none hget]
    unfold stored
    rw [get?_initializeIfNeeded hget, hsets]
    split
    · rw [Option.map_some, Function.update_self]
      rfl
    · refine Option.map_congr fun ref href => ?_
      have hne : ref ≠ st.nextSet := (h.bounded j key' ref href).ne
      rw [Function.update_of_ne hne]

theorem WellFormed.stored_addTo (h : st.WellFormed) :
    (st.addTo i key member).stored j key' =
      if j = i ∧ key' = key then (st.stored i key).map fun members => members.set member ()
      else st.stored j key' := by
  unfold RoomSets.addTo
  cases hget : (st.index i).get? key with
  | none =>
    rw [stored_of_none hget]
    exact stored_eq_ite (stored_of_none hget)
  | some ref =>
    rw [stored_of_some hget, Option.map_some, ← idSet_add]
    exact h.sets_update hget _

theorem WellFormed.stored_removeFrom (h : st.WellFormed) :
    (st.removeFrom i key member).stored j key' =
      if j = i ∧ key' = key then
        (st.stored i key).bind fun members =>
          if (members.erase member).size = 0 then none else some (members.erase member)
      else st.stored j key' := by
  unfold RoomSets.removeFrom
  cases hget : (st.index i).get? key with
  | none =>
    rw [stored_of_none hget]
    exact stored_eq_ite (stored_of_none hget)
  | some ref =>
    rw [stored_of_some hget, Option.bind_some, ← idSet_delete, size_idSet]
    by_cases hsize : ((st.sets ref).delete member).size = 0
    · dsimp only
      rw [if_pos hsize, if_pos hsize]
      unfold stored
      dsimp only
      rw [get?_update, OrderedMap.get?_erase]
      by_cases hkey : j = i ∧ key' = key
      · rw [if_pos hkey.1, if_pos hkey.2, if_pos hkey]
        rfl
      · have hsame : (if j = i then if key' = key then none else (st.index i).get? key'
            else (st.index j).get? key') = (st.index j).get? key' := by
          by_cases hj : j = i
          · subst hj
            rw [if_pos rfl, if_neg fun hk => hkey ⟨rfl, hk⟩]
          · rw [if_neg hj]
        rw [hsame, h.sets_update hget, if_neg hkey, if_neg hkey]
        rfl
    · dsimp only
      rw [if_neg hsize, if_neg hsize]
      exact h.sets_update hget _

end RoomSets

/-! ## The room manager that is represented -/

/-- The maps of a room manager. -/
def RoomManager.index (m : RoomManager) : RoomIndex → OrderedMap JSString IdSet
  | .rooms => m.rooms
  | .sessionRooms => m.sessionRooms

/-- The objects store the sets of a room manager. -/
structure RoomSets.Refines (st : RoomSets) (m : RoomManager) : Prop where
  wellFormed : st.WellFormed
  stored : ∀ i key, st.stored i key = (m.index i).get? key

namespace RoomSets.Refines

variable {st : RoomSets} {m : RoomManager}

theorem empty : RoomSets.Refines .empty .empty where
  wellFormed := ⟨fun _ _ _ hget => (by cases hget), fun _ _ _ _ _ hget => (by cases hget)⟩
  stored i key := by cases i <;> rfl

theorem join (h : st.Refines m) (roomId sessionId : JSString) :
    (st.join roomId sessionId).Refines (m.join roomId sessionId) := by
  have h1 := h.wellFormed.initializeIfNeeded .rooms roomId
  have h2 := h1.initializeIfNeeded .sessionRooms sessionId
  have h3 := h2.addTo .rooms roomId sessionId
  refine ⟨h.wellFormed.join roomId sessionId, fun i key => ?_⟩
  unfold RoomSets.join initializeRoomIfNeeded initializeSessionRoomsIfNeeded
  dsimp only
  rw [h3.stored_addTo, h2.stored_addTo, h2.stored_addTo, h1.stored_initializeIfNeeded,
    h1.stored_initializeIfNeeded, h1.stored_initializeIfNeeded]
  simp only [h.wellFormed.stored_initializeIfNeeded, h.stored]
  cases i with
  | rooms =>
    simp only [RoomManager.index, RoomManager.join, RoomManager.insertInto, OrderedMap.get?_set]
    by_cases hkey : key = roomId <;> simp [hkey]
  | sessionRooms =>
    simp only [RoomManager.index, RoomManager.join, RoomManager.insertInto, OrderedMap.get?_set]
    by_cases hkey : key = sessionId <;> simp [hkey]

theorem leave (h : st.Refines m) (roomId sessionId : JSString) :
    (st.leave roomId sessionId).Refines (m.leave roomId sessionId) := by
  have h1 := h.wellFormed.removeFrom .rooms roomId sessionId
  refine ⟨h.wellFormed.leave roomId sessionId, fun i key => ?_⟩
  unfold RoomSets.leave removeFromRoom removeRoomFromSession
  rw [h1.stored_removeFrom, h.wellFormed.stored_removeFrom, h.wellFormed.stored_removeFrom,
    h.stored, h.stored, h.stored]
  cases i with
  | rooms =>
    have hget : (RoomManager.removeFrom m.rooms roomId sessionId).get? key = _ :=
      Represents.get?_removeFrom roomId sessionId key
    simp [RoomManager.index, RoomManager.leave, hget]
  | sessionRooms =>
    have hget : (RoomManager.removeFrom m.sessionRooms sessionId roomId).get? key = _ :=
      Represents.get?_removeFrom sessionId roomId key
    simp [RoomManager.index, RoomManager.leave, hget]

theorem leave_foldl (h : st.Refines m) (roomIds : List JSString) (sessionId : JSString) :
    (roomIds.foldl (fun st roomId => st.leave roomId sessionId) st).Refines
      (roomIds.foldl (fun m roomId => m.leave roomId sessionId) m) := by
  induction roomIds generalizing st m with
  | nil => exact h
  | cons roomId roomIds ih => exact ih (h.leave roomId sessionId)

end RoomSets.Refines

/-! ## The loop -/

namespace RoomSets

variable {st : RoomSets} {i j : RoomIndex} {key member : JSString} {ref : ℕ}

theorem index_removeFrom_of_ne (hj : j ≠ i) :
    (st.removeFrom i key member).index j = st.index j := by
  unfold removeFrom
  split
  · rfl
  · dsimp only
    split
    · exact Function.update_of_ne hj _ _
    · rfl

/-- A removal changes the set object of its key only. -/
theorem sets_removeFrom_of_ne (hne : ∀ ref', (st.index i).get? key = some ref' → ref' ≠ ref) :
    (st.removeFrom i key member).sets ref = st.sets ref := by
  unfold removeFrom
  split
  · rfl
  · next ref' hget => exact Function.update_of_ne (hne ref' hget).symm _ _

theorem removeFrom_of_some (hget : (st.index i).get? key = some ref) :
    (st.removeFrom i key member).sets ref = (st.sets ref).delete member ∧
      (((st.sets ref).delete member).elements ≠ [] →
        ((st.removeFrom i key member).index i).get? key = some ref) := by
  unfold removeFrom
  rw [hget]
  refine ⟨Function.update_self _ _ _, fun hmembers => ?_⟩
  dsimp only
  rw [if_neg fun hsize => hmembers (SetData.size_eq_zero_iff.mp hsize)]
  exact hget

/-- Leaving a room deletes it from the set object of the session, which stays in its map until
its last element is deleted. -/
theorem WellFormed.leave_of_some (h : st.WellFormed) (roomId : JSString) {sessionId : JSString}
    {rooms : ℕ} (hget : (st.index .sessionRooms).get? sessionId = some rooms) :
    (st.leave roomId sessionId).sets rooms = (st.sets rooms).delete roomId ∧
      (((st.sets rooms).delete roomId).elements ≠ [] →
        ((st.leave roomId sessionId).index .sessionRooms).get? sessionId = some rooms) := by
  have hsets : (st.removeFromRoom roomId sessionId).sets rooms = st.sets rooms := by
    refine sets_removeFrom_of_ne fun ref hroom heq => ?_
    cases (h.separate _ _ _ _ _ hroom (heq ▸ hget)).1
  have hindex : (st.removeFromRoom roomId sessionId).index .sessionRooms = st.index .sessionRooms :=
    index_removeFrom_of_ne (by simp)
  rw [← hindex] at hget
  rw [← hsets]
  exact removeFrom_of_some hget

/-- The loop of `leaveAllRooms` ends, and it leaves the rooms of the start one by one. -/
theorem WellFormed.leaveAllRooms_eq_foldl (h : st.WellFormed) {sessionId : JSString}
    {rooms turns : ℕ} (hget : (st.index .sessionRooms).get? sessionId = some rooms)
    (hturns : (st.sets rooms).places.length < turns) : st.leaveAllRooms turns sessionId =
      some ((st.sets rooms).elements.foldl (fun st roomId => st.leave roomId sessionId) st) := by
  unfold RoomSets.leaveAllRooms
  rw [hget]
  -- as long as the object has an element, it is the one that the map has for the session
  refine SetData.forEach_eq_foldl (P := fun st => st.WellFormed ∧ ((st.sets rooms).elements ≠ [] →
    (st.index .sessionRooms).get? sessionId = some rooms)) (fun st roomId hst hroom => ?_)
    ⟨h, fun _ => hget⟩ hturns
  have hget := hst.2 (List.ne_nil_of_mem hroom)
  obtain ⟨hsets, hindex⟩ := hst.1.leave_of_some roomId hget
  exact ⟨⟨hst.1.leave roomId sessionId, hsets ▸ hindex⟩, hsets⟩

theorem leaveAllRooms_mono {turns turns' : ℕ} {sessionId : JSString} {st' : RoomSets}
    (hturns : turns ≤ turns') (h : st.leaveAllRooms turns sessionId = some st') :
    st.leaveAllRooms turns' sessionId = some st' := by
  unfold leaveAllRooms at h ⊢
  split
  · next hget =>
    rw [hget] at h
    exact h
  · next hget =>
    rw [hget] at h
    exact SetData.forEach_mono hturns h

end RoomSets

namespace RoomSets.Refines

variable {st : RoomSets} {m : RoomManager}

/-- With enough turns `leaveAllRooms` returns, in the state that the list of rooms says. -/
theorem leaveAllRooms (h : st.Refines m) (sessionId : JSString) : ∃ n st',
    (∀ turns, n ≤ turns → st.leaveAllRooms turns sessionId = some st') ∧
      st'.Refines (m.leaveAllRooms sessionId) := by
  have hstored := h.stored .sessionRooms sessionId
  unfold RoomManager.leaveAllRooms
  cases hget : (st.index .sessionRooms).get? sessionId with
  | none =>
    have hnone : m.sessionRooms.get? sessionId = none :=
      hstored.symm.trans (RoomSets.stored_of_none hget)
    rw [hnone]
    refine ⟨0, st, fun turns _ => ?_, h⟩
    unfold RoomSets.leaveAllRooms
    rw [hget]
  | some rooms =>
    have hsome : m.sessionRooms.get? sessionId = some (idSet (st.sets rooms)) :=
      hstored.symm.trans (RoomSets.stored_of_some hget)
    rw [hsome]
    dsimp only
    rw [keys_idSet]
    exact ⟨_, _, fun turns hturns => h.wellFormed.leaveAllRooms_eq_foldl hget hturns,
      h.leave_foldl _ sessionId⟩

end RoomSets.Refines

/-- A reached room manager represents what its calls have left. -/
theorem refines_of_reached {guard : RoomSets → RoomCall × ℕ → Prop} {st : RoomSets}
    (h : roomSets.Reached guard st) : ∃ calls, st.Refines (RoomCall.runAll calls) := by
  induction h with
  | init hinit =>
    cases hinit
    exact ⟨[], .empty⟩
  | @step st st' e _ _ hstep ih =>
    obtain ⟨calls, hcalls⟩ := ih
    refine ⟨calls ++ [e.1], ?_⟩
    rw [RoomCall.runAll, List.foldl_append]
    rcases e with ⟨call, turns⟩
    cases call with
    | join roomId sessionId =>
      obtain rfl := Option.some.inj hstep
      exact hcalls.join roomId sessionId
    | leave roomId sessionId =>
      obtain rfl := Option.some.inj hstep
      exact hcalls.leave roomId sessionId
    | leaveAllRooms sessionId =>
      obtain ⟨n, st1, hreturns, hst1⟩ := hcalls.leaveAllRooms sessionId
      have hmore := RoomSets.leaveAllRooms_mono (Nat.le_max_left turns n) hstep
      obtain rfl := Option.some.inj (hmore.symm.trans (hreturns _ (Nat.le_max_right turns n)))
      exact hst1

/-! ## What is left -/

namespace RoomSets

namespace Refines

variable {st : RoomSets} {m : RoomManager}

theorem members_eq (h : st.Refines m) (i : RoomIndex) (key : JSString) :
    st.members i key = listed (m.index i) key := by
  unfold members listed
  rw [← h.stored]
  cases hget : (st.index i).get? key with
  | none =>
    rw [stored_of_none hget]
    rfl
  | some ref =>
    rw [stored_of_some hget]
    exact (keys_idSet _).symm

theorem has_eq (h : st.Refines m) (i : RoomIndex) (key : JSString) :
    (st.index i).has key = (m.index i).has key := by
  rw [OrderedMap.has_eq_isSome, OrderedMap.has_eq_isSome, ← h.stored]
  exact Option.isSome_map.symm

theorem isInRoom_iff (h : st.Refines m) (roomId sessionId : JSString) :
    st.isInRoom roomId sessionId = true ↔ sessionId ∈ m.getSessionsInRoom roomId := by
  have hmembers : st.members .rooms roomId = m.getSessionsInRoom roomId :=
    h.members_eq .rooms roomId
  rw [← hmembers]
  unfold isInRoom members SetData.has
  cases (st.index .rooms).get? roomId with
  | none => simp
  | some ref => simp

end Refines

/-- The session has left all its rooms, and nothing else has happened. -/
structure LeftAllRooms (sessionId : JSString) (st st' : RoomSets) : Prop where
  inNoRoom : ∀ r, sessionId ∉ st'.getSessionsInRoom r ∧ st'.isInRoom r sessionId = false
  noEntry : (st'.index .sessionRooms).get? sessionId = none
  /-- The rooms that are left are those with another member. -/
  rooms : ∀ r, (st'.index .rooms).has r = true ↔ ∃ t ∈ st.getSessionsInRoom r, t ≠ sessionId
  sessions : ∀ r, st'.getSessionsInRoom r = (st.getSessionsInRoom r).filter fun t => t ≠ sessionId
  others : ∀ t, t ≠ sessionId → st'.getSessionRooms t = st.getSessionRooms t ∧
    ∀ r, st'.isInRoom r t = st.isInRoom r t

/-- In every reached state `leaveAllRooms` returns, and then the session has left its rooms. -/
theorem leaveAllRooms_returns {st : RoomSets} (h : roomSets.Reached (fun _ _ => True) st)
    (sessionId : JSString) : ∃ n st',
      (∀ turns, n ≤ turns → st.leaveAllRooms turns sessionId = some st') ∧
        LeftAllRooms sessionId st st' := by
  obtain ⟨calls, hm⟩ := refines_of_reached h
  obtain ⟨n, st', hreturns, hm'⟩ := hm.leaveAllRooms sessionId
  have hholds := RoomCall.holds_runAll calls
  have hholds' := hholds.leaveAllRooms sessionId
  have hsessions : ∀ r, st'.getSessionsInRoom r =
      (st.getSessionsInRoom r).filter fun t => t ≠ sessionId := fun r => by
    have hold : st.getSessionsInRoom r = _ := hm.members_eq .rooms r
    have hnew : st'.getSessionsInRoom r = _ := hm'.members_eq .rooms r
    rw [hold, hnew]
    exact hholds.getSessionsInRoom_leaveAllRooms sessionId r
  have hin : ∀ r t, st'.isInRoom r t = true ↔ st.isInRoom r t = true ∧ t ≠ sessionId :=
    fun r t => by
      rw [hm'.isInRoom_iff, hm.isInRoom_iff, hholds.getSessionsInRoom_leaveAllRooms,
        List.mem_filter, decide_eq_true_iff]
  refine ⟨n, st', hreturns, fun r => ⟨?_, ?_⟩, ?_, fun r => ?_, hsessions,
    fun t ht => ⟨?_, fun r => ?_⟩⟩
  · rw [hsessions]
    simp
  · rw [Bool.eq_false_iff, ne_eq, hin]
    exact fun hboth => hboth.2 rfl
  · rw [← Option.not_isSome_iff_eq_none, ← OrderedMap.has_eq_isSome, hm'.has_eq, RoomManager.index,
      hholds'.sessionRooms.has_iff]
    refine not_not_intro (List.eq_nil_iff_forall_not_mem.mpr fun r hr => ?_)
    exact ((hholds'.sessionRooms.mem_iff sessionId r).mp hr).2 rfl
  · rw [hm'.has_eq, RoomManager.index, hholds'.rooms.has_iff]
    have hlisted : listed _ r = _ := (hm'.members_eq .rooms r).symm.trans (hsessions r)
    rw [RoomManager.index] at hlisted
    rw [hlisted, ne_eq, List.filter_eq_nil_iff]
    simp
  · have hold : st.getSessionRooms t = _ := hm.members_eq .sessionRooms t
    have hnew : st'.getSessionRooms t = _ := hm'.members_eq .sessionRooms t
    rw [hold, hnew]
    exact RoomManager.getSessionRooms_leaveAllRooms _ ht
  · rw [Bool.eq_iff_iff, hin]
    exact and_iff_left ht

/-- Two sessions in one room, one of them alone in another one. -/
def twoRooms : List (RoomCall × ℕ) :=
  [(.join (js "desk") (js "S1"), 0), (.join (js "desk") (js "S2"), 0),
    (.join (js "own") (js "S1"), 0)]

/-- The loop of the first session has two rooms to visit, and one turn to see its end. -/
theorem leaveAllRooms_returns_twoRooms : ∃ st ∈ roomSets.exec .empty twoRooms,
    st.getSessionsInRoom (js "own") = [js "S1"] ∧
    ∃ st' ∈ st.leaveAllRooms 3 (js "S1"), LeftAllRooms (js "S1") st st' ∧
      st'.getSessionsInRoom (js "desk") = [js "S2"] ∧
      (st'.index .rooms).has (js "own") = false := by
  have hrun : ∃ st ∈ roomSets.exec .empty twoRooms, st.getSessionsInRoom (js "own") = [js "S1"] ∧
      ∃ st' ∈ st.leaveAllRooms 3 (js "S1"), st'.getSessionsInRoom (js "desk") = [js "S2"] ∧
        (st'.index .rooms).has (js "own") = false := by decide +kernel
  obtain ⟨st, hst, hown, st', hst', hresult⟩ := hrun
  obtain ⟨n, st1, hreturns, hleft⟩ :=
    leaveAllRooms_returns (System.Reached.of_exec rfl hst) (js "S1")
  have hmore := leaveAllRooms_mono (Nat.le_max_left 3 n) hst'
  obtain rfl := Option.some.inj (hmore.symm.trans (hreturns _ (Nat.le_max_right 3 n)))
  exact ⟨st, hst, hown, st', hst', hleft, hresult⟩

end RoomSets

end NestQuickfix
