import NestQuickfix.Message.Encoding

/-!
# The fields of an encoded message

The encoder assembles text. Here its output is described as the text of a list
of fields: BeginString, BodyLength, the body fields, CheckSum. Every statement about
the wire goes through this list.
-/

namespace NestQuickfix

open Lib

/-- What a value prints, and nothing when printing throws. -/
def Value.printed (v : Value) : JSString := v.text.toOption.getD []

/-- A value whose conversion to text does not throw. -/
def Value.Printable (v : Value) : Prop := v.text = .ok v.printed

@[simp] theorem Value.printed_str (s : JSString) : (Value.str s).printed = s := rfl

/-- The text of one field. -/
def fieldText (f : Field) : JSString := f.1.text ++ EQ :: (f.2.printed ++ [SOH])

/-- The text of a list of fields. -/
def fieldsText (fs : List Field) : JSString := fs.flatMap fieldText

@[simp] theorem fieldsText_nil : fieldsText [] = [] := rfl

@[simp] theorem fieldsText_cons (f : Field) (fs : List Field) :
    fieldsText (f :: fs) = fieldText f ++ fieldsText fs := rfl

@[simp] theorem fieldsText_append (fs gs : List Field) :
    fieldsText (fs ++ gs) = fieldsText fs ++ fieldsText gs := by
  simp [fieldsText]

/-- `fieldString` succeeds exactly on printable values. -/
theorem fieldString_eq_ok_iff {tag : JSString} {v : Value} {s : JSString} :
    fieldString tag v = .ok s ↔ v.Printable ∧ s = tag ++ EQ :: (v.printed ++ [SOH]) := by
  unfold fieldString Value.Printable Value.printed
  cases h : v.text with
  | error e => simp [bind, Except.bind]
  | ok t => simp [bind, Except.bind, pure, Except.pure, Except.toOption, eq_comm]

/-- Printing a list of fields succeeds exactly when all values are printable. -/
theorem fieldStrings_eq_ok_iff {fs : List Field} {text : JSString} :
    fieldStrings fs = .ok text ↔ (∀ f ∈ fs, f.2.Printable) ∧ text = fieldsText fs := by
  induction fs generalizing text with
  | nil => simp [fieldStrings, eq_comm]
  | cons f fs ih =>
    simp only [fieldStrings, except_bind_eq_ok_iff, fieldString_eq_ok_iff, ih, List.forall_mem_cons]
    constructor
    · rintro ⟨_, ⟨hf, rfl⟩, _, ⟨hfs, rfl⟩, h⟩
      exact ⟨⟨hf, hfs⟩, (Except.ok.inj h).symm⟩
    · rintro ⟨⟨hf, hfs⟩, rfl⟩
      exact ⟨_, ⟨hf, rfl⟩, _, ⟨hfs, rfl⟩, rfl⟩

namespace Message

/-- The fields of the body in the order they are written. -/
def bodyFields (m : Message) : List Field :=
  (Fields.msgType, m.getField Fields.msgType) ::
    ((orderedFields.filter m.hasField).map (fun f => (f, m.getField f)) ++
      m.fields.entries.filter fun e => isRemainingField e.1)

/-- The text that BodyLength measures. -/
def bodyText (m : Message) : JSString := fieldsText m.bodyFields

/-- The BeginString field as it is written. -/
def beginField (m : Message) : Field := (Fields.beginString, m.getField Fields.beginString)

/-- The BodyLength field as it is written. -/
def lengthField (m : Message) : Field := (Fields.bodyLength, .str (natText m.bodyText.length))

/-- The text that CheckSum sums. -/
def checkedText (m : Message) : JSString :=
  fieldsText (m.beginField :: m.lengthField :: m.bodyFields)

/-- The CheckSum field as it is written. -/
def checkSumField (m : Message) : Field :=
  (Fields.checkSum, .str (calculateChecksum m.checkedText))

/-- All fields of the encoded message in order. -/
def wireFields (m : Message) : List Field :=
  m.beginField :: m.lengthField :: (m.bodyFields ++ [m.checkSumField])

/-- The text on the wire of a message that can be encoded. -/
def wireText (m : Message) : JSString := fieldsText m.wireFields

theorem bodyString_eq_ok_iff {m : Message} {body : JSString} :
    m.bodyString = .ok body ↔ (∀ f ∈ m.bodyFields, f.2.Printable) ∧ body = m.bodyText := by
  simp only [bodyString, except_bind_eq_ok_iff, fieldString_eq_ok_iff, fieldStrings_eq_ok_iff,
    bodyFields, bodyText, List.forall_mem_cons, List.forall_mem_append]
  constructor
  · rintro ⟨_, ⟨h1, rfl⟩, _, ⟨h2, rfl⟩, _, ⟨h3, rfl⟩, h⟩
    refine ⟨⟨h1, h2, h3⟩, ?_⟩
    rw [← Except.ok.inj h, fieldsText_cons, fieldsText_append]
    rfl
  · rintro ⟨⟨h1, h2, h3⟩, rfl⟩
    refine ⟨_, ⟨h1, rfl⟩, _, ⟨h2, rfl⟩, _, ⟨h3, rfl⟩, ?_⟩
    rw [fieldsText_cons, fieldsText_append]
    rfl

/-- The text before CheckSum, as the encoder puts it together. -/
theorem checkedString_eq (m : Message) :
    checkedString (fieldText m.beginField) m.bodyText = m.checkedText := by
  simp only [checkedString, checkedText, fieldsText_cons, lengthField, bodyText]
  simp only [fieldText, Value.printed_str]
  rfl

/-- The text on the wire: the summed text, then CheckSum. -/
theorem wireText_eq (m : Message) : m.wireText = m.checkedText ++ fieldText m.checkSumField := by
  simp [wireText, wireFields, checkedText]

/-- Encoding succeeds exactly when the required fields are present and everything
written can be printed; the result is the text of the wire fields. -/
theorem toString_eq_ok_iff {m : Message} {text : JSString} :
    m.toString = .ok text ↔ (∀ f ∈ requiredFields, m.hasField f = true) ∧
      (m.getField Fields.beginString).Printable ∧ (∀ f ∈ m.bodyFields, f.2.Printable) ∧
      text = m.wireText := by
  simp only [toString, except_bind_eq_ok_iff, validateRequiredFields, fieldString_eq_ok_iff,
    bodyString_eq_ok_iff]
  constructor
  · rintro ⟨_, hrequired, _, ⟨h1, rfl⟩, _, ⟨h2, rfl⟩, h⟩
    refine ⟨requireFields_eq_ok_iff.mp hrequired, h1, h2, ?_⟩
    rw [← Except.ok.inj h, wireText_eq, ← checkedString_eq]
    rfl
  · rintro ⟨hrequired, h1, h2, rfl⟩
    refine ⟨(), requireFields_eq_ok_iff.mpr hrequired, _, ⟨h1, rfl⟩, _, ⟨h2, rfl⟩, ?_⟩
    rw [wireText_eq, ← checkedString_eq]
    rfl

/-! ## The keys on the wire -/

theorem mem_bodyFields {m : Message} {f : Field} :
    f ∈ m.bodyFields ↔ f = (Fields.msgType, m.getField Fields.msgType) ∨
      (∃ t ∈ orderedFields, m.hasField t = true ∧ f = (t, m.getField t)) ∨
      (f ∈ m.fields.entries ∧ isRemainingField f.1 = true) := by
  simp only [bodyFields, List.mem_cons, List.mem_append, List.mem_map, List.mem_filter]
  constructor
  · rintro (rfl | ⟨t, ⟨ht, hhas⟩, rfl⟩ | h)
    · exact Or.inl rfl
    · exact Or.inr (Or.inl ⟨t, ht, hhas, rfl⟩)
    · exact Or.inr (Or.inr h)
  · rintro (rfl | ⟨t, ht, hhas, rfl⟩ | h)
    · exact Or.inl rfl
    · exact Or.inr (Or.inl ⟨t, ⟨ht, hhas⟩, rfl⟩)
    · exact Or.inr (Or.inr h)

/-- The body has none of the three fields that frame it. -/
theorem key_of_mem_bodyFields {m : Message} {f : Field} (h : f ∈ m.bodyFields) :
    f.1 ≠ Fields.beginString ∧ f.1 ≠ Fields.bodyLength ∧ f.1 ≠ Fields.checkSum := by
  rcases mem_bodyFields.mp h with rfl | ⟨t, ht, _, rfl⟩ | ⟨_, hremaining⟩
  · exact (by decide : Fields.msgType ≠ Fields.beginString ∧ Fields.msgType ≠ Fields.bodyLength ∧
      Fields.msgType ≠ Fields.checkSum)
  · exact (by decide : ∀ t ∈ orderedFields, t ≠ Fields.beginString ∧ t ≠ Fields.bodyLength ∧
      t ≠ Fields.checkSum) t ht
  · simp only [isRemainingField, decide_eq_true_eq] at hremaining
    exact ⟨hremaining.1, hremaining.2.1, hremaining.2.2.1⟩

/-- The keys of the body are pairwise distinct. -/
theorem bodyFields_keys_nodup (m : Message) : (m.bodyFields.map Prod.fst).Nodup := by
  have hordered : ((orderedFields.filter m.hasField).map (fun f => (f, m.getField f))).map Prod.fst =
      orderedFields.filter m.hasField := by
    simp [List.map_map, Function.comp_def]
  have hremaining : ∀ t, t ∈ (m.fields.entries.filter fun e => isRemainingField e.1).map Prod.fst →
      t ≠ Fields.msgType ∧ t ∉ orderedFields := by
    intro t ht
    obtain ⟨f, hf, rfl⟩ := List.mem_map.mp ht
    have h := (List.mem_filter.mp hf).2
    simp only [isRemainingField, decide_eq_true_eq] at h
    exact h.2.2.2
  rw [bodyFields, List.map_cons, List.map_append, hordered, List.nodup_cons, List.nodup_append]
  refine ⟨?_, ?_, ?_, ?_⟩
  · intro hmem
    rcases List.mem_append.mp hmem with h | h
    · exact (by decide : Fields.msgType ∉ orderedFields) (List.mem_filter.mp h).1
    · exact (hremaining _ h).1 rfl
  · exact (by decide : orderedFields.Nodup).filter _
  · exact m.fields.nodup.sublist (List.filter_sublist.map Prod.fst)
  · rintro t ht t' ht' rfl
    exact (hremaining t ht').2 (List.mem_filter.mp ht).1

/-- The keys on the wire are pairwise distinct. -/
theorem wireFields_keys_nodup (m : Message) : (m.wireFields.map Prod.fst).Nodup := by
  have hbody : ∀ t ∈ m.bodyFields.map Prod.fst,
      t ≠ Fields.beginString ∧ t ≠ Fields.bodyLength ∧ t ≠ Fields.checkSum := by
    intro t ht
    obtain ⟨f, hf, rfl⟩ := List.mem_map.mp ht
    exact key_of_mem_bodyFields hf
  rw [wireFields, List.map_cons, List.map_cons, List.map_append, List.map_singleton,
    List.nodup_cons, List.nodup_cons, List.nodup_append]
  refine ⟨?_, ?_, m.bodyFields_keys_nodup, by simp, ?_⟩
  · rw [List.mem_cons, List.mem_append, List.mem_singleton]
    rintro (h | h | h)
    · exact absurd h (by simp [beginField, lengthField, Fields.beginString, Fields.bodyLength,
        FieldType.tag])
    · exact (hbody _ h).1 rfl
    · exact absurd h (by simp [beginField, checkSumField, Fields.beginString, Fields.checkSum,
        FieldType.tag])
  · rw [List.mem_append, List.mem_singleton]
    rintro (h | h)
    · exact (hbody _ h).2.1 rfl
    · exact absurd h (by simp [lengthField, checkSumField, Fields.bodyLength, Fields.checkSum,
        FieldType.tag])
  · intro t ht t' ht' heq
    rw [List.mem_singleton] at ht'
    subst ht'
    exact (hbody t ht).2.2 heq

/-- The message with exactly the fields on the wire. -/
def encoded (m : Message) : Message := ⟨⟨m.wireFields, m.wireFields_keys_nodup⟩⟩

/-- Apart from BodyLength and CheckSum, the wire has the fields of the message. -/
theorem mem_wireFields_iff {m : Message} (hrequired : ∀ f ∈ requiredFields, m.hasField f = true)
    {f : Field} (h9 : f.1 ≠ Fields.bodyLength) (h10 : f.1 ≠ Fields.checkSum) :
    f ∈ m.wireFields ↔ f ∈ m.fields.entries := by
  have hlength : f ≠ m.lengthField := fun h => h9 (congrArg Prod.fst h)
  have hsum : f ≠ m.checkSumField := fun h => h10 (congrArg Prod.fst h)
  simp only [wireFields, List.mem_cons, List.mem_append, List.not_mem_nil, hlength, hsum,
    false_or, or_false]
  constructor
  · rintro (rfl | hbody)
    · exact mem_of_hasField (hrequired _ (by decide))
    · rcases mem_bodyFields.mp hbody with rfl | ⟨t, _, hhas, rfl⟩ | ⟨hmem, _⟩
      · exact mem_of_hasField (hrequired _ (by decide))
      · exact mem_of_hasField hhas
      · exact hmem
  · intro hmem
    obtain ⟨t, v⟩ := f
    have hget : m.getField t = v := getField_of_mem hmem
    have hhas : m.hasField t = true := hasField_iff.mpr ⟨v, OrderedMap.get?_eq_some_iff.mpr hmem⟩
    by_cases h8 : t = Fields.beginString
    · left
      rw [beginField, ← h8, hget]
    · right
      rw [mem_bodyFields]
      by_cases h35 : t = Fields.msgType
      · left
        rw [← h35, hget]
      · right
        by_cases hordered : t ∈ orderedFields
        · exact Or.inl ⟨t, hordered, hhas, by rw [hget]⟩
        · refine Or.inr ⟨hmem, ?_⟩
          simp only [isRemainingField, decide_eq_true_eq]
          exact ⟨h8, h9, h10, h35, hordered⟩

end Message

end NestQuickfix
