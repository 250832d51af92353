import NestQuickfix.Acceptor.Performs
import NestQuickfix.Session.FailedSends

/-!
# Refusals

The acceptor refuses a message with a Logout that it writes itself. The Logout can be encoded
unless a value that it copies cannot be printed. The write looks at nothing but the socket: if
that has been ended, the write fails, and the error is thrown where nobody listens for it.
-/

namespace NestQuickfix.Acceptor

open Lib Lib.Exec

variable {st : AcceptorState} {c : ℕ} {m : Message} {config : AcceptorConfig}
  {sendingTime reason : JSString}

/-! ## The Logout -/

/-- A refusal of a message can be encoded. -/
structure Refusable (config : AcceptorConfig) (m : Message) : Prop where
  beginString : config.beginString.Printable
  senderCompID : (m.getField Fields.senderCompID).Printable
  targetCompID : (m.getField Fields.targetCompID).Printable

theorem refusable_iff_and : Refusable config m ↔ config.beginString.Printable ∧
    (m.getField Fields.senderCompID).Printable ∧ (m.getField Fields.targetCompID).Printable :=
  ⟨fun h => ⟨h.beginString, h.senderCompID, h.targetCompID⟩, fun ⟨h, h', h''⟩ => ⟨h, h', h''⟩⟩

instance (config : AcceptorConfig) (m : Message) : Decidable (Refusable config m) :=
  have : ∀ v : Value, Decidable v.Printable := fun v =>
    inferInstanceAs (Decidable (v.text = .ok v.printed))
  decidable_of_iff' _ refusable_iff_and

/-- The fields of the Logout that refuses a message. -/
theorem mem_createLogoutMessage {f : Field}
    (h : f ∈ (createLogoutMessage config sendingTime m reason).fields.entries) :
    f ∈ [(Fields.msgType, MsgType.logout), (Fields.text, .str reason),
      (Fields.senderCompID, m.getField Fields.targetCompID),
      (Fields.targetCompID, m.getField Fields.senderCompID),
      (Fields.beginString, config.beginString), (Fields.msgSeqNum, .num (.int 1)),
      (Fields.sendingTime, .str sendingTime)] := by
  have hlogout : ∀ f ∈ (logoutMessage (.str reason)).fields.entries,
      f ∈ [(Fields.msgType, MsgType.logout), (Fields.text, .str reason)] := by
    intro f hf
    unfold logoutMessage at hf
    have hempty : ∀ f ∈ (Message.empty.setFields [(Fields.msgType, MsgType.logout)]).fields.entries,
        f = (Fields.msgType, MsgType.logout) := by
      intro f hf
      rcases Message.mem_of_mem_setFields hf with hf | hf
      · cases hf
      · exact List.mem_singleton.mp hf
    split at hf
    · have htext : _ ∨ f ∈ [(Fields.text, .str reason)] := Message.mem_of_mem_setFields hf
      rcases htext with hf | hf
      · exact hempty f hf ▸ List.mem_cons_self
      · exact List.mem_cons_of_mem _ hf
    · exact hempty f hf ▸ List.mem_cons_self
  rcases Message.mem_of_mem_setFields h with h | h
  · exact List.mem_append_left [_, _, _, _, _] (hlogout f h)
  · exact List.mem_append_right [(Fields.msgType, MsgType.logout), (Fields.text, .str reason)] h

theorem hasField_createLogoutMessage {t : FieldType} (ht : t ∈ Message.requiredFields) :
    (createLogoutMessage config sendingTime m reason).hasField t = true := by
  have htype : (logoutMessage (.str reason)).hasField Fields.msgType = true := by
    unfold logoutMessage
    dsimp only
    split <;> simp [Message.setFields, Message.hasField_setField]
  simp only [Message.requiredFields, List.mem_cons, List.not_mem_nil, or_false] at ht
  rcases ht with rfl | rfl | rfl | rfl | rfl | rfl <;>
    simp [createLogoutMessage, Message.setFields, Message.hasField_setField, htype]

/-- A Logout that refuses a message can be encoded exactly when the values it copies can be
printed. -/
theorem refusable_iff : Refusable config m ↔
    ∃ raw, (createLogoutMessage config sendingTime m reason).toString = .ok raw := by
  rw [Message.exists_toString_iff]
  constructor
  · intro h
    refine ⟨fun t => hasField_createLogoutMessage, fun t ht _ _ => ?_⟩
    have hmem := mem_createLogoutMessage (Message.mem_of_hasField ht)
    generalize (createLogoutMessage config sendingTime m reason).getField t = v at hmem
    simp only [List.mem_cons, List.not_mem_nil, or_false, Prod.mk.injEq] at hmem
    rcases hmem with ⟨_, rfl⟩ | ⟨_, rfl⟩ | ⟨_, rfl⟩ | ⟨_, rfl⟩ | ⟨_, rfl⟩ | ⟨_, rfl⟩ | ⟨_, rfl⟩
    · rfl
    · rfl
    · exact h.targetCompID
    · exact h.senderCompID
    · exact h.beginString
    · rfl
    · rfl
  · rintro ⟨hrequired, hprintable⟩
    have h8 := hprintable Fields.beginString (hrequired _ (by decide)) (by decide) (by decide)
    have h49 := hprintable Fields.senderCompID (hrequired _ (by decide)) (by decide) (by decide)
    have h56 := hprintable Fields.targetCompID (hrequired _ (by decide)) (by decide) (by decide)
    simp only [createLogoutMessage, Message.setFields, List.foldl_cons, List.foldl_nil,
      Message.getField_setField] at h8 h49 h56
    rw [if_neg (by decide), if_neg (by decide), if_pos trivial] at h8
    rw [if_neg (by decide), if_neg (by decide), if_neg (by decide), if_neg (by decide),
      if_pos trivial] at h49
    rw [if_neg (by decide), if_neg (by decide), if_neg (by decide), if_pos trivial] at h56
    exact ⟨h8, h56, h49⟩

/-! ## The write -/

theorem noThrow_failEndedWrite (c : ℕ) : NoThrow (failEndedWrite c) :=
  .get_bind fun _ => .ite (.bind (.get_bind fun _ => .ite (.modify _) (.modify _)) fun _ =>
    .modify _) (.pure ())

/-- What follows an attempt to refuse a message: the loop waits behind a Logout that is written,
and an error is handled. -/
theorem after_refusal (c : ℕ) (m : Message) (rest : List Message) (reason : JSString)
    {f : Except JSError Unit → AcceptorM Unit} (hok : f (.ok ()) = pure ()) :
    (attempt (sendLogoutAndClose c m rest reason) >>= f).after st =
      match (createLogoutMessage st.config st.input.sendingTime m reason).toString with
      | .error e => (f (.error e)).after st
      | .ok raw => (Act.suspend (.closeDelay c rest)).apply
          ((failEndedWrite c).after ((Act.observe (.refused c raw)).apply st)) := by
  have hresult : (sendLogoutAndClose c m rest reason).result st =
      match (createLogoutMessage st.config st.input.sendingTime m reason).toString with
      | .error e => (.error e, st)
      | .ok raw => (.ok (), (Act.suspend (.closeDelay c rest)).apply
          ((failEndedWrite c).after ((Act.observe (.refused c raw)).apply st))) := by
    unfold sendLogoutAndClose
    rw [result_bind, result_get]
    dsimp only
    generalize (createLogoutMessage st.config st.input.sendingTime m reason).toString = r
    cases r with
    | error e => rfl
    | ok raw =>
      obtain ⟨u, hu⟩ := noThrow_failEndedWrite c ((Act.observe (.refused c raw)).apply st)
      have hwrite : (writeRefusal c raw).result st =
          (.ok u, (failEndedWrite c).after ((Act.observe (.refused c raw)).apply st)) :=
        Prod.ext hu rfl
      dsimp only
      rw [result_bind, hwrite]
      rfl
  generalize (createLogoutMessage st.config st.input.sendingTime m reason).toString = r at hresult
  cases r with
  | error e =>
    have hattempt : (attempt (sendLogoutAndClose c m rest reason)).result st =
        (.ok (.error e), st) := by rw [result_attempt, hresult]
    exact after_bind_of_ok hattempt
  | ok raw =>
    have hattempt : (attempt (sendLogoutAndClose c m rest reason)).result st = (.ok (.ok ()),
        (Act.suspend (.closeDelay c rest)).apply
          ((failEndedWrite c).after ((Act.observe (.refused c raw)).apply st))) := by
      rw [result_attempt, hresult]
    rw [after_bind_of_ok hattempt, hok]
    rfl

end NestQuickfix.Acceptor
