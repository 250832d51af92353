import NestQuickfix.Session.SequenceNumbers

/-!
# Sends that fail

`sendMessage` takes its number and completes the message of the caller before it checks the
socket and encodes. Whatever fails afterwards, the number is used up, and the caller's message
keeps the fields that were added to it.
-/

namespace NestQuickfix

open Lib

/-! ## Messages that can be encoded -/

namespace Message

/-- Encoding succeeds exactly when the required fields are present and all values but those of
BodyLength and CheckSum can be printed. -/
theorem exists_toString_iff {m : Message} : (∃ raw, m.toString = .ok raw) ↔
    (∀ f ∈ requiredFields, m.hasField f = true) ∧ ∀ t, m.hasField t = true →
      t ≠ Fields.bodyLength → t ≠ Fields.checkSum → (m.getField t).Printable := by
  constructor
  · rintro ⟨raw, h⟩
    obtain ⟨hrequired, hbegin, hbody, _⟩ := toString_eq_ok_iff.mp h
    refine ⟨hrequired, fun t hhas h9 h10 => ?_⟩
    have hwire := (mem_wireFields_iff hrequired h9 h10).mpr (mem_of_hasField hhas)
    simp only [wireFields, List.mem_cons, List.mem_append, List.not_mem_nil, or_false] at hwire
    rcases hwire with heq | heq | hmem | heq
    · rw [(Prod.mk.inj heq).2]
      exact hbegin
    · exact absurd (Prod.mk.inj heq).1 h9
    · exact hbody _ hmem
    · exact absurd (Prod.mk.inj heq).1 h10
  · rintro ⟨hrequired, hprintable⟩
    refine ⟨_, toString_eq_ok_iff.mpr ⟨hrequired, ?_, fun f hf => ?_, rfl⟩⟩
    · exact hprintable _ (hrequired _ (by decide)) (by decide) (by decide)
    · obtain ⟨_, h9, h10⟩ := key_of_mem_bodyFields hf
      have hentry := (mem_wireFields_iff hrequired h9 h10).mp
        (List.mem_cons_of_mem _ (List.mem_cons_of_mem _ (List.mem_append_left _ hf)))
      have hhas : m.hasField f.1 = true :=
        hasField_iff.mpr ⟨f.2, OrderedMap.get?_eq_some_iff.mpr hentry⟩
      have hprinted := hprintable f.1 hhas h9 h10
      rwa [getField_of_mem hentry] at hprinted

/-- Setting missing fields leaves the others alone. -/
theorem getField_setMissing_of_notMem {m : Message} {fs : List Field} {t : FieldType}
    (h : t ∉ fs.map Prod.fst) : (m.setMissing fs).getField t = m.getField t := by
  induction fs generalizing m with
  | nil => rfl
  | cons f fs ih =>
    rw [List.map_cons, List.mem_cons, not_or] at h
    rw [setMissing, ih h.2]
    split
    · rfl
    · rw [getField_setField, if_neg h.1]

/-- Nothing is missing. -/
theorem setMissing_eq_self {m : Message} {fs : List Field}
    (h : ∀ f ∈ fs, m.hasField f.1 = true) : m.setMissing fs = m := by
  induction fs with
  | nil => rfl
  | cons f fs ih =>
    rw [setMissing, if_pos (h f List.mem_cons_self)]
    exact ih fun g hg => h g (List.mem_cons_of_mem _ hg)

theorem hasField_setMissing_iff {m : Message} {fs : List Field} {t : FieldType} :
    (m.setMissing fs).hasField t = true ↔ m.hasField t = true ∨ t ∈ fs.map Prod.fst := by
  induction fs generalizing m with
  | nil => simp [setMissing]
  | cons f fs ih =>
    rw [setMissing, ih, List.map_cons, List.mem_cons]
    split
    · next hf =>
      by_cases ht : t = f.1
      · subst ht
        simp [hf]
      · simp [ht]
    · rw [hasField_setField, Bool.or_eq_true, decide_eq_true_eq, or_comm (a := t = f.1), or_assoc]

theorem hasField_createReverse_iff {m : Message} {t : FieldType} :
    m.createReverse.hasField t = true ↔
      t = Fields.targetCompID ∨ t = Fields.senderCompID ∨ m.hasField t = true := by
  rw [createReverse_eq, hasField_setField, hasField_setField, Bool.or_eq_true, Bool.or_eq_true,
    decide_eq_true_eq, decide_eq_true_eq]

theorem getField_createReverse (m : Message) (t : FieldType) : m.createReverse.getField t =
    if t = Fields.targetCompID then m.getField Fields.senderCompID
    else if t = Fields.senderCompID then m.getField Fields.targetCompID
    else m.getField t := by
  rw [createReverse_eq, getField_setField, getField_setField]

end Message

/-! ## Sendable messages -/

/-- The fields that a session takes from its configuration. -/
def configFields (config : SessionConfig) : List Field :=
  [(Fields.beginString, config.beginString), (Fields.senderCompID, config.senderCompId),
    (Fields.targetCompID, config.targetCompId)]

/-- A message has a MsgType, and all that is written of it can be printed: its own values and
the values of the configuration that it lacks. -/
structure Sendable (config : SessionConfig) (m : Message) : Prop where
  msgType : m.hasField Fields.msgType = true
  values : ∀ t, m.hasField t = true → t ≠ Fields.bodyLength → t ≠ Fields.checkSum →
    (m.getField t).Printable
  config : ∀ f ∈ configFields config, m.hasField f.1 = false → f.2.Printable

/-- The keys of the fields that a session adds. -/
theorem sessionFields_keys (config : SessionConfig) (seqNum : ℕ) (sendingTime : JSString) :
    (sessionFields config seqNum sendingTime).map Prod.fst = [Fields.beginString,
      Fields.msgSeqNum, Fields.senderCompID, Fields.sendingTime, Fields.targetCompID] := rfl

theorem sessionFields_keys_nodup (config : SessionConfig) (seqNum : ℕ)
    (sendingTime : JSString) :
    ((sessionFields config seqNum sendingTime).map Prod.fst).Nodup := by
  rw [sessionFields_keys]
  decide

section Completed

variable {config : SessionConfig} {seqNum : ℕ} {sendingTime : JSString} {m : Message}

/-- A completed message has the fields of the caller and those of the session. -/
theorem hasField_addRequiredFields_iff {t : FieldType} :
    (addRequiredFields config seqNum sendingTime m).hasField t = true ↔ m.hasField t = true ∨
      t ∈ [Fields.beginString, Fields.msgSeqNum, Fields.senderCompID, Fields.sendingTime,
        Fields.targetCompID] := by
  rw [addRequiredFields, Message.hasField_setMissing_iff, sessionFields_keys]

/-- A field of the session has the value of the caller, if there is one. -/
theorem getField_addRequiredFields {f : Field} (h : f ∈ sessionFields config seqNum sendingTime) :
    (addRequiredFields config seqNum sendingTime m).getField f.1 =
      if m.hasField f.1 then m.getField f.1 else f.2 :=
  Message.getField_setMissing (sessionFields_keys_nodup _ _ _) h

theorem configFields_subset : configFields config ⊆ sessionFields config seqNum sendingTime := by
  intro f hf
  simp only [configFields, List.mem_cons, List.not_mem_nil, or_false] at hf
  rcases hf with rfl | rfl | rfl <;> simp [sessionFields]

/-- The values of a completed message can be printed exactly if those of the caller and the
missing ones of the configuration can. -/
theorem printable_addRequiredFields_iff :
    (∀ t, (addRequiredFields config seqNum sendingTime m).hasField t = true →
      t ≠ Fields.bodyLength → t ≠ Fields.checkSum →
        ((addRequiredFields config seqNum sendingTime m).getField t).Printable) ↔
      (∀ t, m.hasField t = true → t ≠ Fields.bodyLength → t ≠ Fields.checkSum →
        (m.getField t).Printable) ∧
      ∀ f ∈ configFields config, m.hasField f.1 = false → f.2.Printable := by
  have hkept : ∀ t, m.hasField t = true →
      (addRequiredFields config seqNum sendingTime m).getField t = m.getField t := fun t ht =>
    Message.getField_setMissing_of_hasField ht _
  constructor
  · intro h
    refine ⟨fun t ht h9 h10 => ?_, fun f hf hmissing => ?_⟩
    · have hprintable := h t (hasField_addRequiredFields_iff.mpr (Or.inl ht)) h9 h10
      rwa [hkept t ht] at hprintable
    · have hsession : f ∈ sessionFields config seqNum sendingTime := configFields_subset hf
      have hkey : f.1 ∈ [Fields.beginString, Fields.msgSeqNum, Fields.senderCompID,
          Fields.sendingTime, Fields.targetCompID] :=
        sessionFields_keys config seqNum sendingTime ▸ List.mem_map_of_mem hsession
      have hframe := (by decide : ∀ t ∈ [Fields.beginString, Fields.msgSeqNum,
        Fields.senderCompID, Fields.sendingTime, Fields.targetCompID],
          t ≠ Fields.bodyLength ∧ t ≠ Fields.checkSum) f.1 hkey
      have hprintable := h f.1 (hasField_addRequiredFields_iff.mpr (Or.inr hkey)) hframe.1 hframe.2
      rwa [getField_addRequiredFields hsession, hmissing, if_neg Bool.false_ne_true]
        at hprintable
  · rintro ⟨hvalues, hconfig⟩ t ht h9 h10
    by_cases hhas : m.hasField t = true
    · rw [hkept t hhas]
      exact hvalues t hhas h9 h10
    · have ht' := (hasField_addRequiredFields_iff.mp ht).resolve_left hhas
      rw [← sessionFields_keys config seqNum sendingTime, List.mem_map] at ht'
      obtain ⟨f, hf, rfl⟩ := ht'
      rw [getField_addRequiredFields hf, if_neg hhas]
      -- the number and the time can always be printed
      simp only [sessionFields, List.mem_cons, List.not_mem_nil, or_false] at hf
      rcases hf with rfl | rfl | rfl | rfl | rfl
      · exact hconfig _ (by simp [configFields]) (by simpa using hhas)
      · rfl
      · exact hconfig _ (by simp [configFields]) (by simpa using hhas)
      · rfl
      · exact hconfig _ (by simp [configFields]) (by simpa using hhas)

/-- The reply direction of a completed message prints what the message itself prints. -/
theorem printable_createReverse_iff {c : Message} (h49 : c.hasField Fields.senderCompID = true)
    (h56 : c.hasField Fields.targetCompID = true) :
    (∀ t, c.createReverse.hasField t = true → t ≠ Fields.bodyLength → t ≠ Fields.checkSum →
      (c.createReverse.getField t).Printable) ↔
      ∀ t, c.hasField t = true → t ≠ Fields.bodyLength → t ≠ Fields.checkSum →
        (c.getField t).Printable := by
  have hhas : ∀ t, c.createReverse.hasField t = true ↔ c.hasField t = true := by
    intro t
    rw [Message.hasField_createReverse_iff]
    constructor
    · rintro (rfl | rfl | h)
      · exact h56
      · exact h49
      · exact h
    · exact fun h => Or.inr (Or.inr h)
  constructor
  · intro h t ht h9 h10
    by_cases ht56 : t = Fields.targetCompID
    · have hswapped := h Fields.senderCompID ((hhas _).mpr h49) (by decide) (by decide)
      rwa [Message.getField_createReverse, if_neg (by decide), if_pos rfl, ← ht56] at hswapped
    by_cases ht49 : t = Fields.senderCompID
    · have hswapped := h Fields.targetCompID ((hhas _).mpr h56) (by decide) (by decide)
      rwa [Message.getField_createReverse, if_pos rfl, ← ht49] at hswapped
    · have hsame := h t ((hhas t).mpr ht) h9 h10
      rwa [Message.getField_createReverse, if_neg ht56, if_neg ht49] at hsame
  · intro h t ht h9 h10
    rw [Message.getField_createReverse]
    split
    · exact h _ h49 (by decide) (by decide)
    split
    · exact h _ h56 (by decide) (by decide)
    · exact h t ((hhas t).mp ht) h9 h10

/-- What a session writes of a message can be encoded exactly if the message is sendable. -/
theorem exists_toString_reversed_iff :
    (∃ raw, (addRequiredFields config seqNum sendingTime m).createReverse.toString = .ok raw) ↔
      Sendable config m := by
  have hadded : ∀ t ∈ [Fields.beginString, Fields.msgSeqNum, Fields.senderCompID,
      Fields.sendingTime, Fields.targetCompID],
      (addRequiredFields config seqNum sendingTime m).hasField t = true := by
    exact fun t ht => hasField_addRequiredFields_iff.mpr (Or.inr ht)
  have h49 := hadded Fields.senderCompID (by decide)
  have h56 := hadded Fields.targetCompID (by decide)
  have hrequired : (∀ t ∈ Message.requiredFields,
      (addRequiredFields config seqNum sendingTime m).createReverse.hasField t = true) ↔
        m.hasField Fields.msgType = true := by
    constructor
    · intro h
      have hmsgType := h Fields.msgType (by decide)
      rw [Message.hasField_createReverse_iff, hasField_addRequiredFields_iff] at hmsgType
      exact ((hmsgType.resolve_left (by decide)).resolve_left (by decide)).resolve_right
        (by decide)
    · intro h t ht
      rw [Message.hasField_createReverse_iff]
      by_cases htype : t = Fields.msgType
      · rw [htype, hasField_addRequiredFields_iff]
        exact Or.inr (Or.inr (Or.inl h))
      · -- the other required fields are added
        exact Or.inr (Or.inr (hadded t ((by decide : ∀ t ∈ Message.requiredFields,
          t ≠ Fields.msgType → t ∈ [Fields.beginString, Fields.msgSeqNum, Fields.senderCompID,
            Fields.sendingTime, Fields.targetCompID]) t ht htype)))
  rw [Message.exists_toString_iff, hrequired, printable_createReverse_iff h49 h56,
    printable_addRequiredFields_iff]
  constructor
  · rintro ⟨hmsgType, hvalues, hconfig⟩
    exact ⟨hmsgType, hvalues, hconfig⟩
  · rintro ⟨hmsgType, hvalues, hconfig⟩
    exact ⟨hmsgType, hvalues, hconfig⟩

end Completed

/-! ## The trace of a failed send -/

/-- When `sendMessage` does not reject. -/
theorem sendMessage_error_eq_none_iff {config : SessionConfig} {seqNum : ℕ} {env : SendEnv}
    {m : Message} : (sendMessage config seqNum env m).error = none ↔
      env.writable = true ∧ env.writeError = none ∧ Sendable config m := by
  have hencodes : (∃ raw,
      (addRequiredFields config seqNum env.sendingTime m).createReverse.toString = .ok raw) ↔
        Sendable config m := exists_toString_reversed_iff
  rw [← hencodes]
  unfold sendMessage SendAttempt.error
  dsimp only
  cases hwritable : env.writable with
  | false => simp
  | true =>
    cases hraw : (addRequiredFields config seqNum env.sendingTime m).createReverse.toString with
    | error e => simp
    | ok raw => cases env.writeError <;> simp

/-- A send completes the message, whatever becomes of it. -/
theorem message_sendMessage (config : SessionConfig) (seqNum : ℕ) (env : SendEnv) (m : Message) :
    (sendMessage config seqNum env m).message =
      addRequiredFields config seqNum env.sendingTime m := by
  unfold sendMessage
  dsimp only
  cases env.writable with
  | false => simp
  | true =>
    cases (addRequiredFields config seqNum env.sendingTime m).createReverse.toString <;> simp

namespace OutgoingState

/-- A send of a user's message leaves the counter and the message as they were, and whatever
the next send of the message meets, it does what this one would have done there. -/
structure LeavesNoTrace (config : SessionConfig) (s : OutgoingState) (ref : ℕ)
    (env : SendEnv) : Prop where
  counter : (s.step config (.send ref env)).nextOutgoingSeqNum = s.nextOutgoingSeqNum
  message : (s.step config (.send ref env)).messages ref = s.messages ref
  retry : ∀ env', sendMessage config (s.step config (.send ref env)).nextOutgoingSeqNum env'
      ((s.step config (.send ref env)).messages ref) =
    sendMessage config s.nextOutgoingSeqNum env' (s.messages ref)

/-- If a send rejects, it leaves no trace. -/
def FailsCleanly (config : SessionConfig) (s : OutgoingState) (ref : ℕ) (env : SendEnv) : Prop :=
  ∀ e, (sendMessage config s.nextOutgoingSeqNum env (s.messages ref)).error = some e →
    s.LeavesNoTrace config ref env

/-- Every send takes a number, whether it succeeds or not. -/
theorem nextOutgoingSeqNum_send (config : SessionConfig) (s : OutgoingState) (ref : ℕ)
    (env : SendEnv) :
    (s.step config (.send ref env)).nextOutgoingSeqNum = s.nextOutgoingSeqNum + 1 := by
  rcases step_cases config s (.send ref env) with ⟨hout, _⟩ | ⟨_, _, _, hnext, _⟩
  · cases hout
  · exact hnext

/-- No failure is clean. -/
theorem not_failsCleanly_of_error {config : SessionConfig} {s : OutgoingState} {ref : ℕ}
    {env : SendEnv} {e : JSError}
    (h : (sendMessage config s.nextOutgoingSeqNum env (s.messages ref)).error = some e) :
    ¬ s.FailsCleanly config ref env := by
  intro hclean
  have hcounter := (hclean e h).counter
  rw [nextOutgoingSeqNum_send] at hcounter
  omega

/-- A send leaves no trace when it fails exactly if it does not fail: the socket is writable,
reports no error, and the message is sendable. -/
theorem failsCleanly_iff (config : SessionConfig) (s : OutgoingState) (ref : ℕ) (env : SendEnv) :
    s.FailsCleanly config ref env ↔
      env.writable = true ∧ env.writeError = none ∧ Sendable config (s.messages ref) := by
  have hsucceeds : (sendMessage config s.nextOutgoingSeqNum env (s.messages ref)).error = none ↔
      env.writable = true ∧ env.writeError = none ∧ Sendable config (s.messages ref) :=
    sendMessage_error_eq_none_iff
  rw [← hsucceeds]
  cases herror : (sendMessage config s.nextOutgoingSeqNum env (s.messages ref)).error with
  | none =>
    have hclean : s.FailsCleanly config ref env := by
      intro e he
      rw [herror] at he
      cases he
    exact ⟨fun _ => rfl, fun _ => hclean⟩
  | some e =>
    constructor
    · exact fun h => absurd h (not_failsCleanly_of_error herror)
    · intro h
      cases h

/-- A new session whose user holds a Logout message. -/
def holdingLogout : OutgoingState := new fun _ => logoutMessage .undefined

/-- A socket that is not writable: the number is used up, and the message has got a MsgSeqNum. -/
theorem not_failsCleanly_unwritable :
    (holdingLogout.step brokerConfig (.send 0 (sendNow false))).nextOutgoingSeqNum = 2 ∧
      (holdingLogout.messages 0).hasField Fields.msgSeqNum = false ∧
      ((holdingLogout.step brokerConfig (.send 0 (sendNow false))).messages 0).getField
        Fields.msgSeqNum = .num (.int 1) ∧
      ¬ holdingLogout.FailsCleanly brokerConfig 0 (sendNow false) := by
  have herror : (sendMessage brokerConfig holdingLogout.nextOutgoingSeqNum (sendNow false)
      (holdingLogout.messages 0)).error = some (js "Socket not writable") := by
    decide +kernel
  exact ⟨by decide +kernel, by decide +kernel, by decide +kernel,
    not_failsCleanly_of_error herror⟩

end OutgoingState

end NestQuickfix
