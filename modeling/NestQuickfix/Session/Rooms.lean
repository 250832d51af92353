import NestQuickfix.Lib.OrderedMap
import NestQuickfix.Message.Text

/-!
# Rooms

`RoomManager` keeps two indexes of the same relation: the sessions of each room and
the rooms of each session. Both are maps of insertion-ordered sets.
-/

namespace NestQuickfix

open Lib

/-- A set of room or session ids. -/
abbrev IdSet := OrderedMap JSString Unit

/-- The two indexes of a room manager. -/
structure RoomManager where
  rooms : OrderedMap JSString IdSet
  sessionRooms : OrderedMap JSString IdSet

namespace RoomManager

/-- The room manager without members. -/
def empty : RoomManager := ⟨.empty, .empty⟩

/-- Add a member to a set of an index, which is created if needed. -/
def insertInto (index : OrderedMap JSString IdSet) (key member : JSString) :
    OrderedMap JSString IdSet :=
  index.set key (((index.get? key).getD .empty).set member ())

/-- Remove a member from a set of an index, and the set with its last member. -/
def removeFrom (index : OrderedMap JSString IdSet) (key member : JSString) :
    OrderedMap JSString IdSet :=
  match index.get? key with
  | none => index
  | some members =>
    let members := members.erase member
    if members.size = 0 then index.erase key else index.set key members

/-- Add a session to a room. -/
def join (m : RoomManager) (roomId sessionId : JSString) : RoomManager :=
  ⟨insertInto m.rooms roomId sessionId, insertInto m.sessionRooms sessionId roomId⟩

/-- Remove a session from a room. -/
def leave (m : RoomManager) (roomId sessionId : JSString) : RoomManager :=
  ⟨removeFrom m.rooms roomId sessionId, removeFrom m.sessionRooms sessionId roomId⟩

/-- Remove a session from all its rooms. Leaving a room only takes the room being
visited out of the set, so the loop visits the rooms of the start. -/
def leaveAllRooms (m : RoomManager) (sessionId : JSString) : RoomManager :=
  match m.sessionRooms.get? sessionId with
  | none => m
  | some rooms => rooms.keys.foldl (fun m roomId => m.leave roomId sessionId) m

/-- The sessions of a room. -/
def getSessionsInRoom (m : RoomManager) (roomId : JSString) : List JSString :=
  ((m.rooms.get? roomId).getD .empty).keys

/-- The rooms of a session. -/
def getSessionRooms (m : RoomManager) (sessionId : JSString) : List JSString :=
  ((m.sessionRooms.get? sessionId).getD .empty).keys

/-- Whether a session is in a room, read from the first index. -/
def isInRoom (m : RoomManager) (roomId sessionId : JSString) : Bool :=
  match m.rooms.get? roomId with
  | none => false
  | some sessions => sessions.has sessionId

end RoomManager

end NestQuickfix
