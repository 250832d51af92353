import NestQuickfix.Message.Encoding
import NestQuickfix.Message.WireFormat

/-!
# Outgoing messages of a session

`Session.sendMessage` completes the caller's message, checks the socket, and
writes the text of the reversed message. The sequence counter is read and
advanced first, whatever happens next, and a missing MsgSeqNum is stored in
the message of the caller.
-/

namespace NestQuickfix

open Lib

/-- The configuration of a session. -/
structure SessionConfig where
  senderCompId : Value
  targetCompId : Value
  heartbeatInterval : Number
  beginString : Value

/-- Whether a value counts as true in a condition. -/
def Value.truthy : Value → Bool
  | .undefined => false
  | .num n => decide (n ≠ .int 0 ∧ n ≠ .nan)
  | .str s => decide (s ≠ [])
  | .other _ => true

/-! ## Session messages -/

/-- `new LogonMessage(heartBtInt, encryptMethod, resetSeqNum)`. -/
def logonMessage (heartBtInt encryptMethod : Number) (resetSeqNum : Bool) : Message :=
  let logon := Message.empty.setFields [(Fields.msgType, MsgType.logon),
    (Fields.heartBtInt, .num heartBtInt), (Fields.encryptMethod, .num encryptMethod)]
  if resetSeqNum then logon.setField Fields.resetSeqNumFlag (.str (js "Y")) else logon

/-- `new LogoutMessage(text)`. -/
def logoutMessage (text : Value) : Message :=
  let logout := Message.empty.setFields [(Fields.msgType, MsgType.logout)]
  if text.truthy then logout.setField Fields.text text else logout

/-- `new HeartbeatMessage(testReqID)`. -/
def heartbeatMessage (testReqID : Value) : Message :=
  let heartbeat := Message.empty.setFields [(Fields.msgType, MsgType.heartbeat)]
  if testReqID.truthy then heartbeat.setField Fields.testReqID testReqID else heartbeat

/-! ## Sending -/

/-- The fields a session adds, in the order of their tags. -/
def sessionFields (config : SessionConfig) (seqNum : ℕ) (sendingTime : JSString) : List Field :=
  [(Fields.beginString, config.beginString), (Fields.msgSeqNum, .num (.int seqNum)),
    (Fields.senderCompID, config.senderCompId), (Fields.sendingTime, .str sendingTime),
    (Fields.targetCompID, config.targetCompId)]

/-- Set the fields of a list that a message does not have. -/
def Message.setMissing (m : Message) : List Field → Message
  | [] => m
  | f :: fs => (if m.hasField f.1 then m else m.setField f.1 f.2).setMissing fs

/-- `addRequiredFields`, given the sequence number it takes. -/
def addRequiredFields (config : SessionConfig) (seqNum : ℕ) (sendingTime : JSString)
    (message : Message) : Message :=
  message.setMissing (sessionFields config seqNum sendingTime)

/-- What a send meets: the clock, whether there is a writable socket, and the error the
socket reports for the write, if any. -/
structure SendEnv where
  sendingTime : JSString
  writable : Bool
  writeError : Option JSError

/-- What a send does: the caller's message afterwards, the message and text handed
to `socket.write`, if it comes to that, and how the promise settles. -/
structure SendAttempt where
  message : Message
  written : Option (Message × JSString)
  result : Except JSError Unit

/-- The error the promise rejects with, if any. -/
def SendAttempt.error (attempt : SendAttempt) : Option JSError :=
  match attempt.result with
  | .ok () => none
  | .error e => some e

/-- `sendMessage`, given the sequence number it takes. -/
def sendMessage (config : SessionConfig) (seqNum : ℕ) (env : SendEnv) (message : Message) :
    SendAttempt :=
  let message := addRequiredFields config seqNum env.sendingTime message
  if !env.writable then ⟨message, none, .error (js "Socket not writable")⟩
  else
    let reversedMessage := message.createReverse
    match reversedMessage.toString with
    | .error error => ⟨message, none, .error error⟩
    | .ok rawMessage =>
      ⟨message, some (reversedMessage, rawMessage),
        match env.writeError with
        | none => .ok ()
        | some error => .error error⟩

/-- A field that is present keeps its value. -/
theorem Message.getField_setMissing_of_hasField {m : Message} {t : FieldType}
    (h : m.hasField t = true) (fs : List Field) :
    (m.setMissing fs).getField t = m.getField t := by
  induction fs generalizing m with
  | nil => rfl
  | cons f fs ih =>
    rw [setMissing]
    split
    · exact ih h
    · next hf =>
      have hne : t ≠ f.1 := by
        rintro rfl
        exact hf h
      have hrest := ih (m := m.setField f.1 f.2) (by simp [hasField_setField, h])
      rwa [getField_setField, if_neg hne] at hrest

/-- A field of the list has its old value, or the listed one if it was missing. -/
theorem Message.getField_setMissing {m : Message} {fs : List Field}
    (hnodup : (fs.map Prod.fst).Nodup) {t : FieldType} {v : Value} (h : (t, v) ∈ fs) :
    (m.setMissing fs).getField t = if m.hasField t then m.getField t else v := by
  by_cases hhas : m.hasField t = true
  · rw [if_pos hhas, getField_setMissing_of_hasField hhas]
  rw [if_neg hhas]
  induction fs generalizing m with
  | nil => cases h
  | cons f fs ih =>
    rw [List.map_cons, List.nodup_cons] at hnodup
    rcases List.mem_cons.mp h with rfl | h
    · rw [setMissing, if_neg hhas,
        getField_setMissing_of_hasField (by simp [hasField_setField]), getField_setField, if_pos rfl]
    · have hne : t ≠ f.1 := by
        rintro rfl
        exact hnodup.1 (List.mem_map.mpr ⟨_, h, rfl⟩)
      rw [setMissing]
      split
      · exact ih hnodup.2 h hhas
      · exact ih hnodup.2 h (by simpa [hasField_setField, hne] using hhas)

/-- A missing MsgSeqNum becomes the number taken from the counter. -/
theorem getField_msgSeqNum_addRequiredFields (config : SessionConfig) (seqNum : ℕ)
    (sendingTime : JSString) (m : Message) :
    (addRequiredFields config seqNum sendingTime m).getField Fields.msgSeqNum =
      if m.hasField Fields.msgSeqNum then m.getField Fields.msgSeqNum
      else .num (.int seqNum) :=
  Message.getField_setMissing (by simp only [sessionFields, List.map_cons, List.map_nil]; decide)
    (by simp [sessionFields])

/-- What is written is the text of the reversed message. -/
theorem of_written {config : SessionConfig} {seqNum : ℕ} {env : SendEnv} {m written : Message}
    {raw : JSString} (h : (sendMessage config seqNum env m).written = some (written, raw)) :
    written = (addRequiredFields config seqNum env.sendingTime m).createReverse ∧
      written.toString = .ok raw := by
  unfold sendMessage at h
  dsimp only at h
  split at h
  · cases h
  · split at h
    · cases h
    · next hraw =>
      obtain ⟨rfl, rfl⟩ := Prod.mk.inj (Option.some.inj h)
      exact ⟨rfl, hraw⟩

/-- A written message has the MsgSeqNum of the caller's message, or else the number
taken from the counter. -/
theorem getField_msgSeqNum_of_written {config : SessionConfig} {seqNum : ℕ} {env : SendEnv}
    {m written : Message} {raw : JSString}
    (h : (sendMessage config seqNum env m).written = some (written, raw)) :
    written.getField Fields.msgSeqNum =
      if m.hasField Fields.msgSeqNum then m.getField Fields.msgSeqNum
      else .num (.int seqNum) := by
  have h49 : Fields.msgSeqNum ≠ Fields.senderCompID := by decide
  have h56 : Fields.msgSeqNum ≠ Fields.targetCompID := by decide
  rw [(of_written h).1, Message.createReverse_eq, Message.getField_setField, if_neg h56,
    Message.getField_setField, if_neg h49, getField_msgSeqNum_addRequiredFields]

end NestQuickfix
