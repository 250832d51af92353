import NestQuickfix.Message.Chunking

/-!
# Encoding what was decoded

The parser returns the fields of the wire in their order. Encoding these again takes
the body fields from where they already are, and measures and sums the same text, so a
stream of encoded messages is reproduced frame by frame.
-/

namespace NestQuickfix

open Lib

namespace Message

/-- A message whose keys are positive safe integers and whose values, BodyLength and
CheckSum apart, are nonempty well-formed strings without separators. -/
def Transmissible (m : Message) : Prop :=
  ∀ f ∈ m.fields.entries, ∃ n : ℕ, 0 < n ∧ n < 2 ^ 53 ∧ f.1 = .tag n ∧
    (n = 9 ∨ n = 10 ∨ ∃ s, f.2 = .str s ∧ s ≠ [] ∧ WellFormed s ∧ SOH ∉ s ∧ EQ ∉ s)

/-- Values are read back from the wire as they are stored. -/
theorem getField_encoded {m : Message} (hrequired : ∀ f ∈ requiredFields, m.hasField f = true)
    {t : FieldType} (h9 : t ≠ Fields.bodyLength) (h10 : t ≠ Fields.checkSum)
    (ht : m.hasField t = true) : m.encoded.getField t = m.getField t := by
  apply getField_of_mem
  exact (mem_wireFields_iff hrequired h9 h10).mpr (mem_of_hasField ht)

theorem hasField_encoded {m : Message} (hrequired : ∀ f ∈ requiredFields, m.hasField f = true)
    {t : FieldType} (h9 : t ≠ Fields.bodyLength) (h10 : t ≠ Fields.checkSum)
    (ht : m.hasField t = true) : m.encoded.hasField t = true := by
  have hmem : (t, m.getField t) ∈ m.encoded.fields.entries :=
    (mem_wireFields_iff hrequired h9 h10).mpr (mem_of_hasField ht)
  exact hasField_iff.mpr ⟨_, OrderedMap.get?_eq_some_iff.mpr hmem⟩

/-- The required fields are neither of the two computed ones. -/
theorem ne_of_mem_requiredFields {t : FieldType} (ht : t ∈ requiredFields) :
    t ≠ Fields.bodyLength ∧ t ≠ Fields.checkSum :=
  (by decide : ∀ t ∈ requiredFields, t ≠ Fields.bodyLength ∧ t ≠ Fields.checkSum) t ht

theorem mem_requiredFields_of_mem_orderedFields {t : FieldType} (ht : t ∈ orderedFields) :
    t ∈ requiredFields :=
  (by decide : ∀ t ∈ orderedFields, t ∈ requiredFields) t ht

/-- The last pass of the encoder finds the same fields on the wire. -/
theorem filter_isRemainingField_wireFields (m : Message) :
    (m.wireFields.filter fun e => isRemainingField e.1) =
      m.fields.entries.filter fun e => isRemainingField e.1 := by
  have hordered : ((orderedFields.filter m.hasField).map fun f => (f, m.getField f)).filter
      (fun e : Field => isRemainingField e.1) = [] := by
    rw [List.filter_eq_nil_iff]
    intro f hf
    obtain ⟨t, ht, rfl⟩ := List.mem_map.mp hf
    have hmem := (List.mem_filter.mp ht).1
    simp [isRemainingField, hmem]
  have h8 : isRemainingField m.beginField.1 = false :=
    (by decide : isRemainingField Fields.beginString = false)
  have h9 : isRemainingField m.lengthField.1 = false :=
    (by decide : isRemainingField Fields.bodyLength = false)
  have h10 : isRemainingField m.checkSumField.1 = false :=
    (by decide : isRemainingField Fields.checkSum = false)
  have h35 : isRemainingField Fields.msgType = false := by decide
  simp [wireFields, bodyFields, h8, h9, h10, h35, hordered]

/-- Encoding the encoded message again writes the same body. -/
theorem bodyFields_encoded {m : Message}
    (hrequired : ∀ f ∈ requiredFields, m.hasField f = true) :
    m.encoded.bodyFields = m.bodyFields := by
  have hget : ∀ t ∈ requiredFields, m.encoded.getField t = m.getField t := by
    intro t ht
    obtain ⟨h9, h10⟩ := ne_of_mem_requiredFields ht
    exact getField_encoded hrequired h9 h10 (hrequired t ht)
  have hhas : ∀ t ∈ orderedFields, m.encoded.hasField t = m.hasField t := by
    intro t ht
    have ht' := mem_requiredFields_of_mem_orderedFields ht
    obtain ⟨h9, h10⟩ := ne_of_mem_requiredFields ht'
    rw [hrequired t ht', hasField_encoded hrequired h9 h10 (hrequired t ht')]
  have hordered : (orderedFields.filter m.encoded.hasField).map
      (fun f => (f, m.encoded.getField f)) =
        (orderedFields.filter m.hasField).map fun f => (f, m.getField f) := by
    rw [List.filter_congr hhas]
    apply List.map_congr_left
    intro t ht
    rw [hget t (mem_requiredFields_of_mem_orderedFields (List.mem_filter.mp ht).1)]
  have hremaining : (m.encoded.fields.entries.filter fun e => isRemainingField e.1) =
      m.fields.entries.filter fun e => isRemainingField e.1 :=
    m.filter_isRemainingField_wireFields
  rw [bodyFields, bodyFields, hget Fields.msgType (by decide), hordered, hremaining]

/-- The encoder reproduces the frame of a message from its wire fields. -/
theorem toString_encoded {m : Message} {w : JSString} (hw : m.toString = .ok w) :
    m.encoded.toString = .ok w := by
  obtain ⟨hrequired, hbegin, hprintable, rfl⟩ := toString_eq_ok_iff.mp hw
  have hbody := bodyFields_encoded hrequired
  have hget : m.encoded.getField Fields.beginString = m.getField Fields.beginString :=
    getField_encoded hrequired (by decide) (by decide) (hrequired _ (by decide))
  have hbeginField : m.encoded.beginField = m.beginField := by
    rw [beginField, hget, beginField]
  have hbodyText : m.encoded.bodyText = m.bodyText := by
    rw [bodyText, hbody, bodyText]
  have hlength : m.encoded.lengthField = m.lengthField := by
    rw [lengthField, hbodyText, lengthField]
  have hchecked : m.encoded.checkedText = m.checkedText := by
    rw [checkedText, hbeginField, hlength, hbody, checkedText]
  have hsum : m.encoded.checkSumField = m.checkSumField := by
    rw [checkSumField, hchecked, checkSumField]
  apply toString_eq_ok_iff.mpr
  refine ⟨?_, ?_, ?_, ?_⟩
  · intro t ht
    obtain ⟨h9, h10⟩ := ne_of_mem_requiredFields ht
    exact hasField_encoded hrequired h9 h10 (hrequired t ht)
  · rw [hget]
    exact hbegin
  · rw [hbody]
    exact hprintable
  · rw [wireText, wireText, wireFields, wireFields, hbeginField, hlength, hbody, hsum]

/-- A field of the wire that is read back as it was written. -/
theorem Transmissible.clean {m : Message} (h : m.Transmissible)
    (hrequired : ∀ f ∈ requiredFields, m.hasField f = true) :
    m.Clean ∧ ∀ f ∈ m.wireFields, carriedField f = f := by
  have hfield : ∀ f ∈ m.wireFields, CleanField f ∧ carriedField f = f := by
    intro f hf
    obtain ⟨l, c, hl, hc, hl0, hc0, hdigits⟩ := m.computed_digits
    have hdigit : ∀ (n : ℕ) (s : JSString), s ≠ [] → (∀ u ∈ s, u ∈ l ++ c) →
        CleanField (.tag n, .str s) ∧ carriedField (.tag n, .str s) = (.tag n, .str s) := by
      intro n s hs hmem
      have hascii : IsAscii s := by
        intro u hu
        have hu' := hdigits u (hmem u hu)
        omega
      refine ⟨⟨n, s, rfl, hs, fun hSOH => absurd (hdigits SOH (hmem SOH hSOH)) (by decide),
        fun hEQ => absurd (hdigits EQ (hmem EQ hEQ)) (by decide)⟩, ?_⟩
      rw [carriedField, Value.printed_str, hascii.wellFormed]
    by_cases h9 : f.1 = Fields.bodyLength
    · have hlength : f = m.lengthField :=
        List.inj_on_of_nodup_map m.wireFields_keys_nodup hf (by simp [wireFields]) h9
      rw [hlength, hl]
      exact hdigit 9 l hl0 fun u hu => by simp [hu]
    · by_cases h10 : f.1 = Fields.checkSum
      · have hsum : f = m.checkSumField :=
          List.inj_on_of_nodup_map m.wireFields_keys_nodup hf (by simp [wireFields]) h10
        rw [hsum, hc]
        exact hdigit 10 c hc0 fun u hu => by simp [hu]
      · obtain ⟨n, -, -, htag, hvalue⟩ := h f ((mem_wireFields_iff hrequired h9 h10).mp hf)
        obtain ⟨t, v⟩ := f
        obtain rfl : t = .tag n := htag
        rcases hvalue with rfl | rfl | ⟨s, rfl, hs, hwf, hSOH, hEQ⟩
        · exact absurd rfl h9
        · exact absurd rfl h10
        · refine ⟨⟨n, s, rfl, hs, hSOH, hEQ⟩, ?_⟩
          rw [carriedField, Value.printed_str, hwf]
  exact ⟨⟨hrequired, fun f hf => (hfield f hf).1⟩, fun f hf => (hfield f hf).2⟩

end Message

/-- A stream whose values are well formed reaches the parser unchanged. -/
theorem toWellFormed_streamText {ms : List Message}
    (hms : ∀ m ∈ ms, m.Clean ∧ ∀ f ∈ m.wireFields, carriedField f = f) :
    toWellFormed (streamText ms) = streamText ms := by
  have hfields : streamText ms = fieldsText (ms.flatMap Message.wireFields) := by
    simp only [streamText, fieldsText, List.flatMap_assoc]
    rfl
  have hplain : ∀ f ∈ ms.flatMap Message.wireFields, PlainField f := by
    intro f hf
    obtain ⟨m, hm, hf⟩ := List.mem_flatMap.mp hf
    exact ((hms m hm).1.2 f hf).plainField
  have hcarried : ∀ f ∈ ms.flatMap Message.wireFields, carriedField f = f := by
    intro f hf
    obtain ⟨m, hm, hf⟩ := List.mem_flatMap.mp hf
    exact (hms m hm).2 f hf
  rw [hfields, toWellFormed_fieldsText hplain, List.map_congr_left hcarried, List.map_id']

/-- One call on a stream of encoded messages returns as many messages in the same order,
and each of them is encoded to the frame it came from. -/
theorem toString_processData {ms : List Message} {ws : List JSString}
    (hms : ∀ m ∈ ms, m.Transmissible)
    (hws : List.Forall₂ (fun m w => m.toString = .ok w) ms ws) :
    List.Forall₂ (fun m w => m.toString = .ok w) (processData (toUtf8 ws.flatten)) ws := by
  have hall : ws.flatten = streamText ms ∧
      ∀ m ∈ ms, m.Clean ∧ ∀ f ∈ m.wireFields, carriedField f = f := by
    induction hws with
    | nil => exact ⟨rfl, by simp⟩
    | cons hw _ ih =>
      obtain ⟨hflatten, hclean⟩ := ih fun m hm => hms m (by simp [hm])
      obtain ⟨hrequired, -, -, rfl⟩ := Message.toString_eq_ok_iff.mp hw
      refine ⟨by rw [List.flatten_cons, hflatten]; rfl, ?_⟩
      rw [List.forall_mem_cons]
      exact ⟨(hms _ (by simp)).clean hrequired, hclean⟩
  obtain ⟨hflatten, hclean⟩ := hall
  have hdecoded : processData (toUtf8 ws.flatten) = ms.map Message.encoded := by
    rw [hflatten, processData, ofUtf8_toUtf8, toWellFormed_streamText hclean,
      processText_streamText fun m hm => (hclean m hm).1]
  rw [hdecoded, List.forall₂_map_left_iff]
  exact hws.imp fun _ _ hw => Message.toString_encoded hw

/-- Messages of strings are transmissible if their tags and values are. -/
theorem Message.transmissible_ofStrings {pairs : List (ℕ × JSString)}
    (h : ∀ p ∈ pairs, 0 < p.1 ∧ p.1 < 2 ^ 53 ∧ (p.1 = 9 ∨ p.1 = 10 ∨
      p.2 ≠ [] ∧ WellFormed p.2 ∧ SOH ∉ p.2 ∧ EQ ∉ p.2)) : (ofStrings pairs).Transmissible := by
  intro f hf
  obtain ⟨p, hp, rfl⟩ := mem_of_mem_ofStrings hf
  obtain ⟨hpos, hlt, hvalue⟩ := h p hp
  refine ⟨p.1, hpos, hlt, rfl, ?_⟩
  rcases hvalue with h9 | h10 | hs
  · exact Or.inl h9
  · exact Or.inr (Or.inl h10)
  · exact Or.inr (Or.inr ⟨p.2, rfl, hs⟩)

/-- Fields in another order than on the wire, with preset BodyLength and CheckSum. -/
def presetFields (text : JSString) : List (ℕ × JSString) :=
  [(10, js "1=2"), (58, text), (52, js "20250101-00:00:00"), (34, js "1"), (56, js "B"),
    (49, js "A"), (9, []), (35, js "B"), (8, js "FIX.4.4")]

/-- Two such messages. -/
def presetMessages : List Message :=
  [Message.ofStrings (presetFields (js "bid")), Message.ofStrings (presetFields (js "ask"))]

theorem toString_processData_presetMessages :
    List.Forall₂ (fun m w => m.toString = .ok w)
      (processData (toUtf8 (presetMessages.map Message.wireText).flatten))
      (presetMessages.map Message.wireText) := by
  have hms : ∀ m ∈ presetMessages, m.Transmissible := by
    rw [presetMessages, List.forall_mem_cons, List.forall_mem_singleton]
    exact ⟨Message.transmissible_ofStrings (by decide +kernel),
      Message.transmissible_ofStrings (by decide +kernel)⟩
  have hws : List.Forall₂ (fun m w => m.toString = .ok w) presetMessages
      (presetMessages.map Message.wireText) :=
    .cons (by decide +kernel) (.cons (by decide +kernel) .nil)
  exact toString_processData hms hws

end NestQuickfix
