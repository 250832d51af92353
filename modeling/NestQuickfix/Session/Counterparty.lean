import NestQuickfix.Service.FixService
import NestQuickfix.Session.FailedSends

/-!
# The addressing of outgoing messages

A session of the acceptor has the client as SenderCompID and the acceptor as TargetCompID. What
it writes is the reply direction of the completed message: missing CompIDs end up as they
should, and those that the caller has set are swapped like the others.
-/

namespace NestQuickfix

open Lib

section CompIDs

variable {config : SessionConfig} {seqNum : ℕ} {env : SendEnv} {m : Message}

/-- The written SenderCompID is the TargetCompID of the caller, or else of the session. -/
theorem getField_senderCompID_of_written {written : Message} {raw : JSString}
    (h : (sendMessage config seqNum env m).written = some (written, raw)) :
    written.getField Fields.senderCompID = if m.hasField Fields.targetCompID
      then m.getField Fields.targetCompID else config.targetCompId := by
  have hadded : (Fields.targetCompID, config.targetCompId) ∈
      sessionFields config seqNum env.sendingTime := by
    simp [sessionFields]
  have hne : Fields.senderCompID ≠ Fields.targetCompID := by decide
  rw [(of_written h).1, Message.getField_createReverse, if_neg hne, if_pos rfl,
    addRequiredFields, Message.getField_setMissing (sessionFields_keys_nodup _ _ _) hadded]

/-- The written TargetCompID is the SenderCompID of the caller, or else of the session. -/
theorem getField_targetCompID_of_written {written : Message} {raw : JSString}
    (h : (sendMessage config seqNum env m).written = some (written, raw)) :
    written.getField Fields.targetCompID = if m.hasField Fields.senderCompID
      then m.getField Fields.senderCompID else config.senderCompId := by
  have hadded : (Fields.senderCompID, config.senderCompId) ∈
      sessionFields config seqNum env.sendingTime := by
    simp [sessionFields]
  rw [(of_written h).1, Message.getField_createReverse, if_pos rfl,
    addRequiredFields, Message.getField_setMissing (sessionFields_keys_nodup _ _ _) hadded]

/-- A message is written if the socket is writable and the message is sendable. -/
theorem exists_written_iff : (∃ written raw,
    (sendMessage config seqNum env m).written = some (written, raw)) ↔
      env.writable = true ∧ Sendable config m := by
  have hencodes : (∃ raw,
      (addRequiredFields config seqNum env.sendingTime m).createReverse.toString = .ok raw) ↔
        Sendable config m := exists_toString_reversed_iff
  rw [← hencodes]
  unfold sendMessage
  dsimp only
  cases env.writable with
  | false => simp
  | true =>
    cases (addRequiredFields config seqNum env.sendingTime m).createReverse.toString <;> simp

end CompIDs

/-- If a send writes a message, the message goes from the TargetCompID of the session, the
acceptor, to its SenderCompID, the client. -/
def ToCounterparty (config : SessionConfig) (seqNum : ℕ) (env : SendEnv) (m : Message) : Prop :=
  ∀ written raw, (sendMessage config seqNum env m).written = some (written, raw) →
    (written.getField Fields.senderCompID).printed = config.targetCompId.printed ∧
      (written.getField Fields.targetCompID).printed = config.senderCompId.printed

/-- The CompIDs of a message, if it has any, are those of the session. -/
structure HasOwnCompIDs (config : SessionConfig) (m : Message) : Prop where
  sender : m.hasField Fields.senderCompID = true →
    (m.getField Fields.senderCompID).printed = config.senderCompId.printed
  target : m.hasField Fields.targetCompID = true →
    (m.getField Fields.targetCompID).printed = config.targetCompId.printed

section Addressing

variable {config : SessionConfig} {seqNum : ℕ} {env : SendEnv} {m : Message}

/-- A message goes to the counterparty exactly if its own CompIDs are those of the session. -/
theorem toCounterparty_iff_hasOwnCompIDs :
    ToCounterparty config seqNum env m ↔
      (env.writable = true → Sendable config m → HasOwnCompIDs config m) := by
  constructor
  · intro h hwritable hsendable
    obtain ⟨written, raw, hwritten⟩ := exists_written_iff.mpr ⟨hwritable, hsendable⟩
    obtain ⟨h49, h56⟩ := h written raw hwritten
    rw [getField_senderCompID_of_written hwritten] at h49
    rw [getField_targetCompID_of_written hwritten] at h56
    refine ⟨fun hhas => ?_, fun hhas => ?_⟩
    · rwa [if_pos hhas] at h56
    · rwa [if_pos hhas] at h49
  · intro h written raw hwritten
    obtain ⟨hwritable, hsendable⟩ := exists_written_iff.mp ⟨written, raw, hwritten⟩
    have hown := h hwritable hsendable
    rw [getField_senderCompID_of_written hwritten, getField_targetCompID_of_written hwritten]
    constructor
    · split
      · next hhas => exact hown.target hhas
      · rfl
    · split
      · next hhas => exact hown.sender hhas
      · rfl

/-- The service sets the TargetCompID of the session. For its messages only a SenderCompID of the
caller matters. -/
theorem hasOwnCompIDs_addressed_iff (st : Service.FixService) (m : Message) (s : ℕ) :
    HasOwnCompIDs (st.acceptor.sessions s).config (st.addressed m s) ↔
      (m.hasField Fields.senderCompID = true → (m.getField Fields.senderCompID).printed =
        (st.acceptor.sessions s).config.senderCompId.printed) := by
  have hclone : m.clone = m := m.setFields_empty_entries
  have hne : Fields.senderCompID ≠ Fields.targetCompID := by decide
  have hhas : (st.addressed m s).hasField Fields.senderCompID =
      m.hasField Fields.senderCompID := by
    rw [Service.FixService.addressed, hclone, Message.hasField_setField, decide_eq_false hne,
      Bool.false_or]
  have hsender : (st.addressed m s).getField Fields.senderCompID =
      m.getField Fields.senderCompID := by
    rw [Service.FixService.addressed, hclone, Message.getField_setField, if_neg hne]
  have htarget : (st.addressed m s).getField Fields.targetCompID =
      (st.acceptor.sessions s).config.targetCompId := by
    rw [Service.FixService.addressed, Message.getField_setField, if_pos rfl]
  constructor
  · intro h
    rw [← hhas, ← hsender]
    exact h.sender
  · intro h
    refine ⟨?_, fun _ => congrArg Value.printed htarget⟩
    rw [hhas, hsender]
    exact h

/-- A message goes to the counterparty exactly if it is not written, or the CompIDs that the
caller has set are those of the session. For a message that the service sends, only a SenderCompID
of the caller matters. -/
theorem toCounterparty_iff (config : SessionConfig) (seqNum : ℕ) (env : SendEnv) (m : Message) :
    (ToCounterparty config seqNum env m ↔
      (env.writable = true → Sendable config m → HasOwnCompIDs config m)) ∧
    ∀ (st : Service.FixService) (s : ℕ),
      ToCounterparty (st.acceptor.sessions s).config seqNum env (st.addressed m s) ↔
        (env.writable = true → Sendable (st.acceptor.sessions s).config (st.addressed m s) →
          m.hasField Fields.senderCompID = true → (m.getField Fields.senderCompID).printed =
            (st.acceptor.sessions s).config.senderCompId.printed) := by
  refine ⟨toCounterparty_iff_hasOwnCompIDs, fun st s => ?_⟩
  rw [toCounterparty_iff_hasOwnCompIDs, hasOwnCompIDs_addressed_iff]

end Addressing

/-- A session of the acceptor with a client. -/
def acceptedConfig : SessionConfig :=
  ⟨.str (js "CLIENT"), .str (js "BROKER"), .int 30, .str (js "FIX.4.4")⟩

/-- A message that its user has addressed from the broker to the client. -/
def addressedReport : Message :=
  .ofStrings [(35, js "8"), (49, js "BROKER"), (56, js "CLIENT")]

/-- The addressed message goes out as one of the client to the broker. -/
theorem not_toCounterparty_addressedReport :
    (sendMessage acceptedConfig 1 ⟨[], true, none⟩ addressedReport).written.map (fun w =>
        (w.1.getField Fields.senderCompID, w.1.getField Fields.targetCompID)) =
      some (.str (js "CLIENT"), .str (js "BROKER")) ∧
    ¬ ToCounterparty acceptedConfig 1 ⟨[], true, none⟩ addressedReport := by
  have hwritten : (sendMessage acceptedConfig 1 ⟨[], true, none⟩ addressedReport).written.map
      (fun w => (w.1.getField Fields.senderCompID, w.1.getField Fields.targetCompID)) =
        some (.str (js "CLIENT"), .str (js "BROKER")) := by
    decide +kernel
  refine ⟨hwritten, fun h => ?_⟩
  obtain ⟨⟨written, raw⟩, hw, heq⟩ := Option.map_eq_some_iff.mp hwritten
  have h49 := (h written raw hw).1
  rw [(Prod.mk.inj heq).1] at h49
  exact absurd h49 (by decide)

end NestQuickfix
