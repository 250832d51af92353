import NestQuickfix.Acceptor.MessageHandler
import NestQuickfix.Initiator.Initiator
import NestQuickfix.Message.Received

/-!
# Addresses of the initiator's messages

The session of an initiator fills in its own CompIDs, and `createReverse` swaps them before
they are written. An acceptor with the configured TargetCompID receives them the wrong way
round, unless both CompIDs are the same.
-/

namespace NestQuickfix.Initiator

open Lib Acceptor

variable {S T : JSString}

/-- An acceptor with this TargetCompID accepts the message as far as its CompIDs go, and
routes it to the session of these CompIDs. -/
structure AddressedTo (S T : JSString) (received : Message) : Prop where
  accepted : ∀ (st : AcceptorState) (c : ℕ) (rest : List Message),
    st.config.targetCompID = .str T → received.requireFields logonFields = .ok () →
      (validateLogon c received rest).after st = (suspend (if st.config.auth
        then .validateCredentials c received rest else .validated c received rest .valid)).after st
  routed : buildSessionId received = sessionKey (.str S) (.str T)

/-- A written message is addressed from `S` to `T`, and so is what an acceptor receives of it. -/
structure Agrees (S T : JSString) (written : Message) (raw : JSString) : Prop where
  senderCompID : (Fields.senderCompID, .str S) ∈ written.printedFields
  targetCompID : (Fields.targetCompID, .str T) ∈ written.printedFields
  received : written.Readable →
    ∃ received, processData (toUtf8 raw) = [received] ∧ AddressedTo S T received

/-- The CompIDs of a message that an acceptor receives decide where it goes. -/
theorem addressedTo_of_getField {received : Message}
    (hsender : received.getField Fields.senderCompID = .str S)
    (htarget : received.getField Fields.targetCompID = .str T) : AddressedTo S T received := by
  constructor
  · intro st c rest hconfig hrequired
    unfold validateLogon Exec.after
    rw [Exec.result_bind, Exec.result_get, hrequired]
    dsimp only
    rw [htarget, hconfig, if_neg (not_not.mpr rfl)]
    split <;> rfl
  · rw [buildSessionId, hsender, htarget]

/-- The session of an initiator writes the configured CompIDs in each other's place. -/
theorem getField_compIDs_of_written {config : InitiatorConfig} {o : Outgoing}
    (ho : o.Unaddressed) {seqNum : ℕ} {env : SendEnv} {written : Message} {raw : JSString}
    (h : (sendMessage (setupSession config) seqNum env (o.message config)).written =
      some (written, raw)) :
    written.getField Fields.senderCompID = .str config.targetCompID ∧
      written.getField Fields.targetCompID = .str config.senderCompID := by
  obtain ⟨h49, h56⟩ := ho.hasField config
  have hnodup :
      ((sessionFields (setupSession config) seqNum env.sendingTime).map Prod.fst).Nodup := by
    simp only [sessionFields, List.map_cons, List.map_nil]
    decide
  have hsender := Message.getField_setMissing (m := o.message config) hnodup
    (t := Fields.senderCompID) (v := .str config.senderCompID)
    (by simp [sessionFields, setupSession])
  have htarget := Message.getField_setMissing (m := o.message config) hnodup
    (t := Fields.targetCompID) (v := .str config.targetCompID)
    (by simp [sessionFields, setupSession])
  have hne : Fields.senderCompID ≠ Fields.targetCompID := by decide
  rw [h49, if_neg Bool.false_ne_true] at hsender
  rw [h56, if_neg Bool.false_ne_true] at htarget
  rw [(of_written h).1, Message.createReverse_eq, Message.getField_setField,
    Message.getField_setField, Message.getField_setField, if_neg hne, if_pos rfl, if_pos rfl]
  exact ⟨htarget, hsender⟩

/-- For every configuration and every unaddressed message that its session writes, both ends
agree on the addresses exactly when the two configured CompIDs are the same. -/
theorem agrees_iff {config : InitiatorConfig} {o : Outgoing} (ho : o.Unaddressed) {seqNum : ℕ}
    {env : SendEnv} {written : Message} {raw : JSString}
    (h : (sendMessage (setupSession config) seqNum env (o.message config)).written =
      some (written, raw)) :
    Agrees config.senderCompID config.targetCompID written raw ↔
      config.senderCompID = config.targetCompID := by
  obtain ⟨hsender, htarget⟩ := getField_compIDs_of_written ho h
  have hraw := (of_written h).2
  have h49 :=
    Message.mem_printedFields hraw (by decide : Fields.senderCompID ∈ Message.requiredFields)
  have h56 :=
    Message.mem_printedFields hraw (by decide : Fields.targetCompID ∈ Message.requiredFields)
  rw [hsender, Value.printed_str] at h49
  rw [htarget, Value.printed_str] at h56
  constructor
  · intro hagrees
    exact Value.str.inj (Message.eq_of_mem_printedFields hagrees.senderCompID h49)
  · intro hsame
    rw [← hsame] at h49
    rw [hsame] at h56
    refine ⟨hsame ▸ h49, h56, fun hreadable => ?_⟩
    rw [(Message.toString_eq_ok_iff.mp hraw).2.2.2]
    refine ⟨_, Message.processData_toUtf8_of_readable hreadable, addressedTo_of_getField ?_ ?_⟩
    · exact Message.getField_received h49
    · exact Message.getField_received h56

/-- An initiator with the given CompIDs. -/
def initiator (senderCompID targetCompID : JSString) : InitiatorConfig :=
  ⟨senderCompID, targetCompID, .int 30, .str (js "FIX.4.4")⟩

/-- The Logon of an initiator. -/
def sentLogon (config : InitiatorConfig) : SendAttempt :=
  sendMessage (setupSession config) 1 ⟨js "20250101-00:00:00", true, none⟩
    ((Outgoing.logon true).message config)

/-- Both ends agree on the Logon of an initiator that is its own counterparty. -/
theorem agrees_sentLogon : ∃ written raw,
    (sentLogon (initiator (js "DESK") (js "DESK"))).written = some (written, raw) ∧
      Agrees (js "DESK") (js "DESK") written raw := by
  have hwritten : (sentLogon (initiator (js "DESK") (js "DESK"))).written.isSome = true := by
    decide +kernel
  obtain ⟨⟨written, raw⟩, h⟩ := Option.isSome_iff_exists.mp hwritten
  exact ⟨written, raw, h, (agrees_iff (o := .logon true) trivial h).mpr rfl⟩

/-- The Logon of a client to its broker is written with the SenderCompID of the broker. -/
theorem not_agrees_sentLogon : ∃ written raw,
    (sentLogon (initiator (js "CLIENT") (js "BROKER"))).written = some (written, raw) ∧
      ¬ Agrees (js "CLIENT") (js "BROKER") written raw := by
  have hwritten : ∃ w ∈ (sentLogon (initiator (js "CLIENT") (js "BROKER"))).written,
      (Fields.senderCompID, .str (js "CLIENT")) ∉ w.1.printedFields := by decide +kernel
  obtain ⟨⟨written, raw⟩, h, hsender⟩ := hwritten
  exact ⟨written, raw, h, fun hagrees => hsender hagrees.senderCompID⟩

end NestQuickfix.Initiator
