import NestQuickfix.Message.Pieces

/-!
# What is received of a message

Values are printed when a message is encoded, so a parser reads strings. A message whose
printed fields have no separators in their values is received with exactly these fields.
-/

namespace NestQuickfix

open Lib

/-- A field with its value as it is printed. -/
def printedField (f : Field) : Field := (f.1, .str f.2.printed)

namespace Message

/-- The fields on the wire, with their values as they are printed. -/
def printedFields (m : Message) : List Field := m.wireFields.map printedField

theorem printedFields_keys (m : Message) :
    m.printedFields.map Prod.fst = m.wireFields.map Prod.fst := by
  rw [printedFields, List.map_map]
  rfl

/-- Printed fields have the same text. -/
theorem fieldsText_printedFields (m : Message) : fieldsText m.printedFields = m.wireText := by
  rw [fieldsText, printedFields, List.flatMap_map]
  rfl

/-- A message whose printed fields have numeric tags and nonempty well-formed values without
separators. -/
def Readable (m : Message) : Prop := ∀ f ∈ m.printedFields, CleanField f ∧ carriedField f = f

/-- The message with the printed fields. -/
def received (m : Message) : Message :=
  ⟨⟨m.printedFields, m.printedFields_keys ▸ m.wireFields_keys_nodup⟩⟩

/-- A received message has the fields that every parsed message needs. -/
theorem acceptMessage_received (m : Message) : acceptMessage m.received = some m.received := by
  have hhas : ∀ f ∈ m.printedFields, m.received.hasField f.1 = true := fun f hf =>
    hasField_iff.mpr ⟨f.2, OrderedMap.get?_eq_some_iff.mpr hf⟩
  have hbegin : m.received.hasField Fields.beginString = true :=
    hhas (printedField m.beginField) (List.mem_map_of_mem (by simp [wireFields]))
  have htype : m.received.hasField Fields.msgType = true :=
    hhas (printedField (Fields.msgType, m.getField Fields.msgType))
      (List.mem_map_of_mem (by simp [wireFields, bodyFields]))
  rw [acceptMessage, hbegin, htype]
  rfl

/-- The bytes of a readable message are received as its printed fields. -/
theorem processData_toUtf8_of_readable {m : Message} (h : m.Readable) :
    processData (toUtf8 m.wireText) = [m.received] := by
  have hplain : ∀ f ∈ m.printedFields, PlainField f := fun f hf => (h f hf).1.plainField
  have hcarried : m.printedFields.map carriedField = m.printedFields :=
    (List.map_congr_left fun f hf => (h f hf).2).trans (List.map_id' _)
  have hread : readFields .empty m.printedFields = m.received := by
    ext1
    apply OrderedMap.ext
    exact entries_readFields_of_stored (m.printedFields_keys ▸ m.wireFields_keys_nodup)
      fun f hf => (h f hf).1.storedField_eq
  obtain ⟨fs, hfs, hkey⟩ := m.wireFields_eq_cons
  have hprinted : m.printedFields = printedField m.beginField :: fs.map printedField := by
    rw [printedFields, hfs, List.map_cons]
  have hkeys : ∀ g ∈ fs.map printedField, g.1 ≠ Fields.beginString := by
    intro g hg
    obtain ⟨f, hf, rfl⟩ := List.mem_map.mp hg
    exact hkey f hf
  rw [processData, ofUtf8_toUtf8, ← fieldsText_printedFields, toWellFormed_fieldsText hplain,
    hcarried, hprinted, processText_fieldsText (fun f hf => hplain f (hprinted ▸ hf)) rfl hkeys,
    ← hprinted, hread, acceptMessage_received]
  rfl

/-- The required fields of an encoded message are among its printed fields. -/
theorem mem_printedFields {m : Message} {raw : JSString} (h : m.toString = .ok raw)
    {t : FieldType} (ht : t ∈ requiredFields) :
    (t, .str (m.getField t).printed) ∈ m.printedFields := by
  obtain ⟨h9, h10⟩ : t ≠ Fields.bodyLength ∧ t ≠ Fields.checkSum :=
    (by decide : ∀ t ∈ requiredFields, t ≠ Fields.bodyLength ∧ t ≠ Fields.checkSum) t ht
  have hrequired := (toString_eq_ok_iff.mp h).1
  exact List.mem_map.mpr
    ⟨_, (mem_wireFields_iff hrequired h9 h10).mpr (mem_of_hasField (hrequired t ht)), rfl⟩

/-- A printed field has only one value. -/
theorem eq_of_mem_printedFields {m : Message} {t : FieldType} {u v : Value}
    (hu : (t, u) ∈ m.printedFields) (hv : (t, v) ∈ m.printedFields) : u = v := by
  have hnodup : (m.printedFields.map Prod.fst).Nodup :=
    m.printedFields_keys ▸ m.wireFields_keys_nodup
  exact (Prod.mk.inj (List.inj_on_of_nodup_map hnodup hu hv rfl)).2

/-- A received field. -/
theorem getField_received {m : Message} {t : FieldType} {v : JSString}
    (h : (t, .str v) ∈ m.printedFields) : m.received.getField t = .str v :=
  getField_of_mem h

end Message

end NestQuickfix
