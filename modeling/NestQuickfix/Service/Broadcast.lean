import NestQuickfix.Acceptor.WellFormed
import NestQuickfix.Message.Reencoding
import NestQuickfix.Service.Objects
import NestQuickfix.Session.Counterparty

/-!
# Broadcasts

A message that is sent to a room is written once by every registered session of the room that
can write it. A session is registered under its own id only, so the loop of `send` comes to it
once, and what one session does with its copy does not matter to the others.
-/

namespace NestQuickfix.Service

open Lib Lib.Exec Acceptor

/-- The session that writes, if an observation is a write. -/
def writer : Observation → Option ℕ
  | .wrote s _ _ => some s
  | _ => none

/-- The fields of a copy that depend on its session. -/
def sessionTags : List FieldType :=
  [Fields.beginString, Fields.bodyLength, Fields.checkSum, Fields.msgSeqNum,
    Fields.senderCompID, Fields.sendingTime, Fields.targetCompID]

/-- The fields that a session adds. -/
def addedTags : List FieldType :=
  [Fields.beginString, Fields.msgSeqNum, Fields.senderCompID, Fields.sendingTime,
    Fields.targetCompID]

/-- A session gets a message for a room: its id is in the room, it is registered under it, its
socket is writable, and its copy can be encoded. -/
structure FixService.Receives (st : FixService) (roomId : JSString) (m : Message) (s : ℕ) :
    Prop where
  inRoom : (st.acceptor.sessions s).sessionId ∈ st.acceptor.rooms.getSessionsInRoom roomId
  registered : st.acceptor.registry.get? (st.acceptor.sessions s).sessionId = some s
  writable : st.acceptor.writable (st.acceptor.sessions s).socket = true
  sendable : Sendable (st.acceptor.sessions s).config (st.addressed m s)

/-- What a session writes of a message without the fields that sessions add: on the wire the
other fields are those of the message, BeginString is that of the session, and MsgSeqNum is its
next number. -/
structure FixService.WritesCopy (st : FixService) (m : Message) (s : ℕ) (copy : Message)
    (raw : JSString) : Prop where
  encoded : copy.toString = .ok raw
  others : ∀ t ∉ sessionTags, copy.encoded.fields.get? t = m.fields.get? t
  beginString : copy.getField Fields.beginString = (st.acceptor.sessions s).config.beginString
  msgSeqNum : copy.getField Fields.msgSeqNum =
    .num (.int (st.acceptor.sessions s).nextOutgoingSeqNum)

/-- The writes of a broadcast: one for each session that gets the message, and no others. -/
structure FixService.Broadcasts (st : FixService) (roomId : JSString) (m : Message)
    (writes : List Observation) : Prop where
  once : ∀ s, st.Receives roomId m s → ∃ copy raw,
    (writes.filter fun o => writer o = some s) = [.wrote s copy raw]
  only : ∀ o ∈ writes, ∃ s copy raw, o = .wrote s copy raw ∧ st.Receives roomId m s
  copies : (∀ t ∈ addedTags, m.hasField t = false) → ∀ s copy raw,
    .wrote s copy raw ∈ writes → st.WritesCopy m s copy raw

variable {guard : FixService → Call → Prop} {st : FixService} {roomId : JSString} {m : Message}

/-! ## Registered sessions -/

theorem keeps_deliver (m : Message) (s : ℕ) :
    Exec.Keeps (fun st : FixService => WellFormed st.acceptor.lifecycle) (deliver m s) :=
  .modify fun st h => h.lowered (keeps_startSend s (st.addressed m s) st.acceptor)

theorem keeps_send (m : Message) :
    Exec.Keeps (fun st : FixService => WellFormed st.acceptor.lifecycle) (FixService.send m) := by
  refine keeps_get_bind fun st _ => ?_
  split
  · exact .throw fun _ => id
  · split
    · exact .modify fun _ => id
    · exact .bind (.forEach _ fun s => keeps_deliver m s) fun _ => .modify fun _ => id

/-- In every run of the service and the acceptor, entries, tasks and listeners belong to their
sessions. -/
theorem wellFormed_of_reached (h : service.Reached guard st) :
    WellFormed st.acceptor.lifecycle := by
  have hinv : service.Invariant guard fun st => WellFormed st.acceptor.lifecycle := by
    refine ⟨?_, fun st e st' hst _ hstep => ?_⟩
    · rintro _ ⟨config, rfl⟩
      exact wellFormed_new config
    · dsimp only [service] at hstep
      split at hstep
      · next henabled =>
        obtain rfl := Option.some.inj hstep
        cases e with
        | acceptor e =>
          have hacceptor : st.acceptor.step e = some ((Acceptor.perform e.event).after
              { st.acceptor with input := e.input }) := if_pos henabled
          obtain ⟨k', hk', hlowered⟩ := step_change hacceptor
          exact (hst.change henabled hk').lowered hlowered
        | toTarget caller targetId => exact hst
        | send caller m input =>
          exact (keeps_send m).after (s := st.meets input) hst
        | settled => exact hst
      · cases hstep
  exact hinv.of_reached h

/-- The loop comes to the registered sessions in the room, and to no session twice. -/
theorem mem_sessionsInRoom_iff (h : WellFormed st.acceptor.lifecycle) {s : ℕ} :
    s ∈ st.sessionsInRoom roomId ↔
      (st.acceptor.sessions s).sessionId ∈ st.acceptor.rooms.getSessionsInRoom roomId ∧
        st.acceptor.registry.get? (st.acceptor.sessions s).sessionId = some s := by
  rw [FixService.sessionsInRoom, List.mem_filterMap]
  constructor
  · rintro ⟨id, hid, hs⟩
    obtain rfl : (st.acceptor.sessions s).sessionId = id := (h.entry id s hs).1
    exact ⟨hid, hs⟩
  · rintro ⟨hid, hs⟩
    exact ⟨_, hid, hs⟩

theorem nodup_sessionsInRoom (h : WellFormed st.acceptor.lifecycle) :
    (st.sessionsInRoom roomId).Nodup := by
  refine List.Nodup.filterMap (fun id id' s hs hs' => ?_) (OrderedMap.keys_nodup _)
  exact (h.entry id s hs).1.symm.trans (h.entry id' s hs').1

/-! ## The writes of a loop -/

/-- What a session writes when the service passes its copy of a message to it. -/
def FixService.writeOf (st : FixService) (m : Message) (s : ℕ) : Option Observation :=
  (sendMessage (st.acceptor.sessions s).config (st.acceptor.sessions s).nextOutgoingSeqNum
    ⟨st.acceptor.input.sendingTime, st.acceptor.writable (st.acceptor.sessions s).socket, none⟩
      (st.addressed m s)).written.map fun w => .wrote s w.1 w.2

/-- A delivery records the write, and counts. -/
theorem acceptor_deliver (m : Message) (s : ℕ) (st : FixService) :
    ((deliver m s).after st).acceptor = { st.acceptor with
      sessions := Function.update st.acceptor.sessions s { st.acceptor.sessions s with
        nextOutgoingSeqNum := (st.acceptor.sessions s).nextOutgoingSeqNum + 1 }
      trace := st.acceptor.trace ++ (st.writeOf m s).toList } := by
  have hafter : ((deliver m s).after st).acceptor =
      (startSend s (st.addressed m s)).after st.acceptor := rfl
  rw [hafter, FixService.writeOf, startSend, Exec.after, result_bind, result_get]
  dsimp only
  rw [result_bind, result_updateSession]
  dsimp only
  cases (sendMessage (st.acceptor.sessions s).config (st.acceptor.sessions s).nextOutgoingSeqNum
    ⟨st.acceptor.input.sendingTime, st.acceptor.writable (st.acceptor.sessions s).socket, none⟩
      (st.addressed m s)).written with
  | none =>
    rw [Option.map_none, Option.toList_none, List.append_nil]
    rfl
  | some w => rfl

/-- A delivery to one session does not matter to the others. -/
theorem writeOf_deliver (m : Message) {s y : ℕ} (hne : y ≠ s) (st : FixService) :
    ((deliver m s).after st).writeOf m y = st.writeOf m y := by
  have hsession : ((deliver m s).after st).acceptor.sessions y = st.acceptor.sessions y := by
    rw [acceptor_deliver]
    exact Function.update_of_ne hne _ _
  have hwritable : ((deliver m s).after st).acceptor.writable = st.acceptor.writable := by
    rw [acceptor_deliver]
    rfl
  have htime : ((deliver m s).after st).acceptor.input = st.acceptor.input := by
    rw [acceptor_deliver]
  rw [FixService.writeOf, FixService.writeOf, FixService.addressed, FixService.addressed, hsession,
    hwritable, htime]

/-- The writes of a loop over different sessions. -/
theorem trace_delivers (m : Message) {sessions : List ℕ} (hnodup : sessions.Nodup)
    (st : FixService) : ((Exec.forEach sessions (deliver m)).after st).acceptor.trace =
      st.acceptor.trace ++ sessions.filterMap (st.writeOf m) := by
  induction sessions generalizing st with
  | nil => exact (List.append_nil _).symm
  | cons s sessions ih =>
    rw [List.nodup_cons] at hnodup
    have hafter : (Exec.forEach (s :: sessions) (deliver m)).after st =
        (Exec.forEach sessions (deliver m)).after ((deliver m s).after st) := by
      rw [Exec.forEach, Exec.after, result_bind]
      rfl
    have hwrites : sessions.filterMap (((deliver m s).after st).writeOf m) =
        sessions.filterMap (st.writeOf m) := by
      refine List.filterMap_congr fun y hy => writeOf_deliver m ?_ st
      rintro rfl
      exact hnodup.1 hy
    rw [hafter, ih hnodup.2, hwrites, acceptor_deliver, List.append_assoc, List.filterMap_cons]
    cases st.writeOf m s <;> rfl

/-- The writes of a call of `send` for a room. -/
theorem trace_send (m : Message) (hst : WellFormed st.acceptor.lifecycle)
    (htarget : st.target = some roomId) : ((FixService.send m).after st).acceptor.trace =
      st.acceptor.trace ++ (st.sessionsInRoom roomId).filterMap (st.writeOf m) := by
  unfold FixService.send
  rw [Exec.after, result_bind, result_get]
  dsimp only
  rw [htarget]
  dsimp only
  by_cases hempty : st.acceptor.rooms.getSessionsInRoom roomId = []
  · rw [if_pos hempty]
    have hnone : st.sessionsInRoom roomId = [] := by
      rw [FixService.sessionsInRoom, hempty]
      rfl
    rw [hnone]
    exact (List.append_nil _).symm
  · rw [if_neg hempty, result_bind]
    obtain ⟨st', hr, _⟩ := result_delivers m (st.sessionsInRoom roomId) st
    have hnodup : (st.sessionsInRoom roomId).Nodup := nodup_sessionsInRoom hst
    have hloop := trace_delivers m hnodup st
    rw [Exec.after, hr] at hloop
    rw [hr]
    exact hloop

/-! ## Copies -/

/-- The map of a message in terms of what it has. -/
theorem get?_eq_ite (m : Message) (t : FieldType) :
    m.fields.get? t = if m.hasField t = true then some (m.getField t) else none := by
  rw [Message.hasField, OrderedMap.has_eq_isSome, Message.getField]
  cases m.fields.get? t <;> rfl

/-- The fields that neither the service nor a session touches. -/
theorem get?_copy (st : FixService) (m : Message) (s : ℕ) {seqNum : ℕ} {time : JSString}
    {t : FieldType} (ht : t ∉ addedTags) :
    (addRequiredFields (st.acceptor.sessions s).config seqNum time
      (st.addressed m s)).createReverse.fields.get? t = m.fields.get? t := by
  have hclone : m.clone = m := m.setFields_empty_entries
  have h49 : t ≠ Fields.senderCompID := fun h => ht (h ▸ by decide)
  have h56 : t ≠ Fields.targetCompID := fun h => ht (h ▸ by decide)
  have hhas : (addRequiredFields (st.acceptor.sessions s).config seqNum time
      (st.addressed m s)).createReverse.hasField t = true ↔ m.hasField t = true := by
    rw [Message.hasField_createReverse_iff, hasField_addRequiredFields_iff, FixService.addressed,
      hclone, Message.hasField_setField, Bool.or_eq_true, decide_eq_true_eq]
    simp only [h49, h56, false_or]
    exact or_iff_left ht
  have hget : (addRequiredFields (st.acceptor.sessions s).config seqNum time
      (st.addressed m s)).createReverse.getField t = m.getField t := by
    rw [Message.getField_createReverse, if_neg h56, if_neg h49, addRequiredFields,
      Message.getField_setMissing_of_notMem ht, FixService.addressed, hclone,
      Message.getField_setField, if_neg h56]
  rw [get?_eq_ite, get?_eq_ite, hget]
  exact if_congr hhas rfl rfl

/-- What a session writes of a message. -/
theorem writesCopy_of_writeOf {s : ℕ} {copy : Message} {raw : JSString}
    (hm : ∀ t ∈ addedTags, m.hasField t = false)
    (h : st.writeOf m s = some (.wrote s copy raw)) : st.WritesCopy m s copy raw := by
  obtain ⟨⟨written, text⟩, hwritten, hobserved⟩ := Option.map_eq_some_iff.mp h
  obtain ⟨_, rfl, rfl⟩ := Observation.wrote.inj hobserved
  obtain ⟨hcopy, hencoded⟩ := of_written hwritten
  have hmissing : ∀ t ∈ addedTags, t ≠ Fields.targetCompID →
      (st.addressed m s).hasField t = false := by
    intro t ht hne
    have hclone : m.clone = m := m.setFields_empty_entries
    rw [FixService.addressed, hclone, Message.hasField_setField, decide_eq_false hne, hm t ht]
    rfl
  obtain ⟨hrequired, _⟩ := Message.toString_eq_ok_iff.mp hencoded
  refine ⟨hencoded, fun t ht => ?_, ?_, ?_⟩
  · have h9 : t ≠ Fields.bodyLength := fun h => ht (h ▸ by decide)
    have h10 : t ≠ Fields.checkSum := fun h => ht (h ▸ by decide)
    have hsame : written.encoded.fields.get? t = written.fields.get? t := by
      ext v
      rw [OrderedMap.get?_eq_some_iff, OrderedMap.get?_eq_some_iff]
      exact Message.mem_wireFields_iff hrequired h9 h10
    have hadded : t ∉ addedTags := fun h => ht ((by decide : addedTags ⊆ sessionTags) h)
    rw [hsame, hcopy, get?_copy st m s hadded]
  · have h49 : Fields.beginString ≠ Fields.senderCompID := by decide
    have h56 : Fields.beginString ≠ Fields.targetCompID := by decide
    have hadded : (Fields.beginString, (st.acceptor.sessions s).config.beginString) ∈
        sessionFields (st.acceptor.sessions s).config
          (st.acceptor.sessions s).nextOutgoingSeqNum st.acceptor.input.sendingTime := by
      simp [sessionFields]
    rw [hcopy, Message.getField_createReverse, if_neg h56, if_neg h49, addRequiredFields,
      Message.getField_setMissing (sessionFields_keys_nodup _ _ _) hadded,
      hmissing Fields.beginString (by decide) h56, if_neg Bool.false_ne_true]
  · have hnumber := getField_msgSeqNum_of_written hwritten
    rw [hmissing Fields.msgSeqNum (by decide) (by decide), if_neg Bool.false_ne_true] at hnumber
    exact hnumber

/-! ## Broadcasts -/

/-- A session writes if it receives the message. -/
theorem writeOf_isSome_iff {s : ℕ} : (∃ copy raw, st.writeOf m s = some (.wrote s copy raw)) ↔
    st.acceptor.writable (st.acceptor.sessions s).socket = true ∧
      Sendable (st.acceptor.sessions s).config (st.addressed m s) := by
  have hwrites : (∃ written raw, (sendMessage (st.acceptor.sessions s).config
      (st.acceptor.sessions s).nextOutgoingSeqNum ⟨st.acceptor.input.sendingTime,
        st.acceptor.writable (st.acceptor.sessions s).socket, none⟩
          (st.addressed m s)).written = some (written, raw)) ↔
      st.acceptor.writable (st.acceptor.sessions s).socket = true ∧
        Sendable (st.acceptor.sessions s).config (st.addressed m s) := exists_written_iff
  rw [← hwrites]
  constructor
  · rintro ⟨copy, raw, h⟩
    obtain ⟨⟨written, text⟩, hwritten, _⟩ := Option.map_eq_some_iff.mp h
    exact ⟨written, text, hwritten⟩
  · rintro ⟨written, text, hwritten⟩
    refine ⟨written, text, ?_⟩
    rw [FixService.writeOf, hwritten]
    rfl

theorem writeOf_eq {s : ℕ} {o : Observation} (h : st.writeOf m s = some o) :
    ∃ copy raw, o = .wrote s copy raw := by
  obtain ⟨w, _, rfl⟩ := Option.map_eq_some_iff.mp h
  exact ⟨_, _, rfl⟩

/-- The writes of the sessions in the room are a broadcast. -/
theorem broadcasts_writes (m : Message) (hst : WellFormed st.acceptor.lifecycle) :
    st.Broadcasts roomId m ((st.sessionsInRoom roomId).filterMap (st.writeOf m)) := by
  refine ⟨fun s hs => ?_, fun o ho => ?_, fun hm s copy raw hmem => ?_⟩
  · have hmem := (mem_sessionsInRoom_iff hst).mpr ⟨hs.inRoom, hs.registered⟩
    obtain ⟨copy, raw, hwrite⟩ := writeOf_isSome_iff.mpr ⟨hs.writable, hs.sendable⟩
    refine ⟨copy, raw, ?_⟩
    obtain ⟨before, after, hsplit⟩ := List.append_of_mem hmem
    have hnodup : (st.sessionsInRoom roomId).Nodup := nodup_sessionsInRoom hst
    rw [hsplit, List.nodup_append, List.nodup_cons] at hnodup
    have hothers : ∀ ys : List ℕ, s ∉ ys →
        ((ys.filterMap (st.writeOf m)).filter fun o => writer o = some s) = [] := by
      intro ys hys
      rw [List.filter_eq_nil_iff]
      intro o ho
      obtain ⟨y, hy, hwrites⟩ := List.mem_filterMap.mp ho
      obtain ⟨_, _, rfl⟩ := writeOf_eq hwrites
      rw [decide_eq_true_eq]
      intro heq
      exact hys (Option.some.inj heq ▸ hy)
    have hbefore : s ∉ before := fun h => hnodup.2.2 s h s List.mem_cons_self rfl
    rw [hsplit, List.filterMap_append, List.filterMap_cons_some hwrite, List.filter_append,
      hothers before hbefore, List.filter_cons_of_pos (by simp [writer]),
      hothers after hnodup.2.1.1]
    rfl
  · obtain ⟨s, hs, hwrite⟩ := List.mem_filterMap.mp ho
    obtain ⟨copy, raw, rfl⟩ := writeOf_eq hwrite
    obtain ⟨hroom, hregistered⟩ := (mem_sessionsInRoom_iff hst).mp hs
    obtain ⟨hwritable, hsendable⟩ := writeOf_isSome_iff.mp ⟨copy, raw, hwrite⟩
    exact ⟨s, copy, raw, rfl, hroom, hregistered, hwritable, hsendable⟩
  · obtain ⟨y, _, hwrite⟩ := List.mem_filterMap.mp hmem
    obtain ⟨_, _, heq⟩ := writeOf_eq hwrite
    obtain rfl := (Observation.wrote.inj heq).1
    exact writesCopy_of_writeOf hm hwrite

/-- The service after `to` and the state in which `send` begins. -/
def FixService.directedTo (st : FixService) (roomId : JSString) (input : Input) : FixService :=
  ((FixService.to roomId).after st).meets input

/-- Sending an object to a room with a nonempty name, in any state of a run: the call does not
reject, its writes are a broadcast of the message of the object, and all objects that there were
are as they were. -/
theorem broadcasts_sendFrom (h : service.Reached guard st) (hroom : roomId ≠ []) (input : Input)
    {objects : List Message} {ref : ℕ} (href : objects[ref]? = some m) :
    ∃ writes copies st', (sendFrom ref).result ⟨st.directedTo roomId input, objects⟩ =
        (.ok (), ⟨st', objects ++ copies⟩) ∧
      st'.acceptor.trace = st.acceptor.trace ++ writes ∧
      (st.directedTo roomId input).Broadcasts roomId m writes := by
  have hreached := wellFormed_of_reached h
  have hst : WellFormed (st.directedTo roomId input).acceptor.lifecycle := hreached
  have htarget : (st.directedTo roomId input).target = some roomId := by
    have hstored : (st.directedTo roomId input).targetId = some roomId := rfl
    rw [FixService.target, hstored, Option.filter_some, if_pos (decide_eq_true hroom)]
  obtain ⟨copies, hsend⟩ := result_sendFrom (st.directedTo roomId input) href
  obtain ⟨st', hr, _⟩ := result_send_of_some m htarget
  have htrace := trace_send m hst htarget
  rw [Exec.after, hr] at hsend htrace
  exact ⟨_, copies, st', hsend, htrace, broadcasts_writes m hst⟩

/-- A client joins a room, and another one with an empty name. -/
def namelessCalls : List Call :=
  ((Event.connect (js "client:1")).calmly :: logonSteps 0 (js "ALICE") ++
    ([Event.join 0 (js "bonds"), .join 0 []].map Event.calmly)).map .acceptor

/-- A broadcast to the first room. -/
theorem broadcasts_sendFrom_bonds :
    ∃ st ∈ service.exec ⟨broker 0, none, 0, []⟩ namelessCalls,
      ∃ writes copies st', (sendFrom 0).result ⟨st.directedTo (js "bonds") .calm, [quote]⟩ =
          (.ok (), ⟨st', [quote] ++ copies⟩) ∧
        st'.acceptor.trace = st.acceptor.trace ++ writes ∧
        (st.directedTo (js "bonds") .calm).Broadcasts (js "bonds") quote writes := by
  have hrun : (service.exec ⟨broker 0, none, 0, []⟩ namelessCalls).isSome = true := by
    decide +kernel
  obtain ⟨st, hst⟩ := Option.isSome_iff_exists.mp hrun
  have hreached : service.Reached (fun _ _ => True) st := .of_exec ⟨_, rfl⟩ hst
  exact ⟨st, hst, broadcasts_sendFrom hreached (by decide) .calm rfl⟩

/-- In the second room the client is registered and its socket is writable, but the call of
`send` throws and nothing is written. -/
theorem not_broadcasts_nameless :
    ∃ st ∈ service.exec ⟨broker 0, none, 0, []⟩ namelessCalls,
      (st.directedTo [] .calm).Receives [] quote 0 ∧
      (∃ st', (FixService.send quote).result (st.directedTo [] .calm) =
          (.error (js "Target ID must be specified using to() method"), st') ∧
        st'.acceptor.trace = st.acceptor.trace) ∧
      ¬ (st.directedTo [] .calm).Broadcasts [] quote [] := by
  have hrun : ∃ st ∈ service.exec ⟨broker 0, none, 0, []⟩ namelessCalls,
      (st.acceptor.sessions 0).sessionId ∈ st.acceptor.rooms.getSessionsInRoom [] ∧
      st.acceptor.registry.get? (st.acceptor.sessions 0).sessionId = some 0 ∧
      (st.directedTo [] .calm).acceptor.writable (st.acceptor.sessions 0).socket = true ∧
      ((sendMessage (st.acceptor.sessions 0).config (st.acceptor.sessions 0).nextOutgoingSeqNum
        ⟨js "20250101-00:00:00", true, none⟩
          ((st.directedTo [] .calm).addressed quote 0)).written).isSome = true := by
    decide +kernel
  obtain ⟨st, hst, hroom, hregistered, hwritable, hwritten⟩ := hrun
  have hreceives : (st.directedTo [] .calm).Receives [] quote 0 := by
    obtain ⟨⟨written, raw⟩, hw⟩ := Option.isSome_iff_exists.mp hwritten
    exact ⟨hroom, hregistered, hwritable, (exists_written_iff.mp ⟨written, raw, hw⟩).2⟩
  refine ⟨st, hst, hreceives, ⟨_, result_send_of_none rfl, rfl⟩, fun h => ?_⟩
  obtain ⟨copy, raw, honce⟩ := h.once 0 hreceives
  cases honce

end NestQuickfix.Service
