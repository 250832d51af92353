import NestQuickfix.Message.Trailer

/-!
# The layout of an encoded message

The encoder writes some fields in places of their own and the others behind them, in two passes
that exclude each other's fields. Stored values of BodyLength and CheckSum are excluded from both.
-/

namespace NestQuickfix

open Lib

/-- Splitting a text of fields at SOH gives the fields, and nothing behind the last SOH. -/
theorem splitOn_fieldsText {fs : List Field} (h : ∀ f ∈ fs, SOH ∉ bareText f) :
    (fieldsText fs).splitOn SOH = fs.map bareText ++ [[]] := by
  induction fs with
  | nil => rfl
  | cons f fs ih =>
    have hrest := ih fun g hg => h g (List.mem_cons_of_mem _ hg)
    have hfirst : (bareText f).splitOn SOH = [bareText f] :=
      List.splitOn_eq_singleton (h f List.mem_cons_self)
    rw [fieldsText_cons, fieldText_eq, List.append_assoc, List.singleton_append,
      List.splitOn_append_cons_self, hfirst, hrest]
    rfl

/-- Numbers below 1000 have at most three digits. -/
theorem length_natText_le {n : ℕ} (h : n < 1000) : (natText n).length ≤ 3 := by
  have hone : ∀ d < 10, (natText d).length = 1 := by
    intro d hd
    rw [natText_of_lt hd, List.length_singleton]
  have htwo : ∀ d < 100, (natText d).length ≤ 2 := by
    intro d hd
    by_cases hlt : d < 10
    · have hlength := hone d hlt
      omega
    · have hlength := hone (d / 10) (by omega)
      rw [natText_of_le (by omega), List.length_append, List.length_singleton]
      omega
  by_cases hlt : n < 10
  · have hlength := hone n hlt
    omega
  · have hlength := htwo (n / 10) (by omega)
    rw [natText_of_le (by omega), List.length_append, List.length_singleton]
    omega

theorem length_calculateChecksum (text : JSString) :
    (Message.calculateChecksum text).length = 3 := by
  have hlength := length_natText_le (n := (text.map UInt16.toNat).sum % 256) (by omega)
  rw [Message.calculateChecksum, padStart, List.length_append, List.length_replicate]
  omega

namespace Message

/-! ## Stored values of the trailer -/

/-- The fields that are not computed, in insertion order. -/
def ownFields (m : Message) : List Field :=
  m.fields.entries.filter fun f => f.1 ≠ Fields.bodyLength ∧ f.1 ≠ Fields.checkSum

theorem get?_eq_of_ownFields_eq {m n : Message} (h : m.ownFields = n.ownFields) {t : FieldType}
    (h9 : t ≠ Fields.bodyLength) (h10 : t ≠ Fields.checkSum) :
    m.fields.get? t = n.fields.get? t := by
  have hmem : ∀ (k : Message) (v : Value), k.fields.get? t = some v ↔ (t, v) ∈ k.ownFields := by
    intro k v
    rw [OrderedMap.get?_eq_some_iff, ownFields, List.mem_filter]
    simp [h9, h10]
  ext v
  rw [hmem, hmem, h]

/-- Messages that differ in BodyLength and CheckSum only are encoded alike. -/
theorem toString_eq_of_ownFields_eq {m n : Message} (h : m.ownFields = n.ownFields) :
    m.toString = n.toString := by
  have hget : ∀ t, t ≠ Fields.bodyLength → t ≠ Fields.checkSum → m.getField t = n.getField t := by
    intro t h9 h10
    rw [getField, getField, get?_eq_of_ownFields_eq h h9 h10]
  have hhas : ∀ t, t ≠ Fields.bodyLength → t ≠ Fields.checkSum → m.hasField t = n.hasField t := by
    intro t h9 h10
    rw [hasField, hasField, OrderedMap.has_eq_isSome, OrderedMap.has_eq_isSome,
      get?_eq_of_ownFields_eq h h9 h10]
  have hvalid : m.validateRequiredFields = n.validateRequiredFields := by
    have hrequire : ∀ ts : List FieldType, (∀ t ∈ ts, t ≠ Fields.bodyLength ∧ t ≠ Fields.checkSum) →
        m.requireFields ts = n.requireFields ts := by
      intro ts hts
      induction ts with
      | nil => rfl
      | cons t ts ih =>
        obtain ⟨ht, hts⟩ := List.forall_mem_cons.mp hts
        rw [requireFields, requireFields, hhas t ht.1 ht.2, ih hts]
    exact hrequire _ (by decide)
  have hordered : ((orderedFields.filter m.hasField).map fun f => (f, m.getField f)) =
      (orderedFields.filter n.hasField).map fun f => (f, n.getField f) := by
    have hkeys := (by decide : ∀ t ∈ orderedFields, t ≠ Fields.bodyLength ∧ t ≠ Fields.checkSum)
    rw [List.filter_congr fun t ht => hhas t (hkeys t ht).1 (hkeys t ht).2]
    refine List.map_congr_left fun t ht => ?_
    obtain ⟨h9, h10⟩ := hkeys t (List.mem_filter.mp ht).1
    rw [hget t h9 h10]
  have hremaining : (m.fields.entries.filter fun e => isRemainingField e.1) =
      n.fields.entries.filter fun e => isRemainingField e.1 := by
    have hown : ∀ k : Message, (k.fields.entries.filter fun e => isRemainingField e.1) =
        k.ownFields.filter fun e => isRemainingField e.1 := by
      intro k
      rw [ownFields, List.filter_filter]
      refine List.filter_congr fun f _ => ?_
      by_cases hf : isRemainingField f.1 = true
      · have hkey := hf
        simp only [isRemainingField, decide_eq_true_eq] at hkey
        simp [hf, hkey.2.1, hkey.2.2.1]
      · simp [hf]
    rw [hown m, hown n, h]
  rw [toString, toString, bodyString, bodyString, hvalid, hordered, hremaining,
    hget Fields.beginString (by decide) (by decide), hget Fields.msgType (by decide) (by decide)]

/-! ## The layout -/

/-- The fields that have a place of their own. -/
def placedFields : List FieldType :=
  [Fields.beginString, Fields.bodyLength, Fields.msgType, Fields.senderCompID,
    Fields.targetCompID, Fields.msgSeqNum, Fields.sendingTime, Fields.checkSum]

/-- The other fields, in insertion order. -/
def otherFields (m : Message) : List Field := m.fields.entries.filter fun f => f.1 ∉ placedFields

/-- The fields between BodyLength and CheckSum. -/
def laidOutBody (m : Message) : List Field :=
  [Fields.msgType, Fields.senderCompID, Fields.targetCompID, Fields.msgSeqNum,
    Fields.sendingTime].map (fun t => (t, m.getField t)) ++ m.otherFields

/-- BeginString and BodyLength. -/
def laidOutHead (m : Message) (length : JSString) : List Field :=
  [(Fields.beginString, m.getField Fields.beginString), (Fields.bodyLength, .str length)]

/-- All fields of a text. -/
def laidOutFields (m : Message) (length sum : JSString) : List Field :=
  m.laidOutHead length ++ m.laidOutBody ++ [(Fields.checkSum, .str sum)]

/-- The layout of the text of a message. -/
structure HasLayout (m : Message) (raw length sum : JSString) : Prop where
  /-- The text is a sequence of fields that end in SOH. -/
  fields : raw.splitOn SOH = (m.laidOutFields length sum).map bareText ++ [[]]
  /-- No field is written twice. -/
  once : ((m.laidOutFields length sum).map Prod.fst).Nodup
  /-- Other than BodyLength and CheckSum, the fields are those of the message. -/
  same : ∀ f, f.1 ≠ Fields.bodyLength → f.1 ≠ Fields.checkSum →
    (f ∈ m.laidOutFields length sum ↔ f ∈ m.fields.entries)
  parts : raw = fieldsText (m.laidOutHead length) ++ fieldsText m.laidOutBody ++
    (js "10=" ++ sum ++ [SOH])
  /-- What BodyLength counts begins with MsgType and ends where CheckSum begins. -/
  body : js "35=" <+: fieldsText m.laidOutBody
  bodyLength : length = natText (fieldsText m.laidOutBody).length
  /-- CheckSum is the sum of all that is before it, with three digits. -/
  checkSum : sum = padStart 3 (natText
    (unitSum (fieldsText (m.laidOutHead length) ++ fieldsText m.laidOutBody) % 256))
  digits : sum.length = 3

/-- With the required fields, the two passes write the fields of the layout. -/
theorem laidOutBody_eq {m : Message} (hrequired : ∀ f ∈ requiredFields, m.hasField f = true) :
    m.laidOutBody = m.bodyFields := by
  have hordered : orderedFields.filter m.hasField = orderedFields :=
    List.filter_eq_self.mpr fun t ht =>
      hrequired t ((by decide : ∀ t ∈ orderedFields, t ∈ requiredFields) t ht)
  have hothers : m.otherFields = m.fields.entries.filter fun e => isRemainingField e.1 := by
    refine List.filter_congr fun f _ => decide_eq_decide.mpr ?_
    rw [placedFields, orderedFields]
    simp only [List.mem_cons, List.not_mem_nil, or_false]
    tauto
  rw [laidOutBody, bodyFields, hordered, hothers]
  rfl

/-- With the required fields, the fields of the layout are those on the wire. -/
theorem laidOutFields_eq {m : Message} (hrequired : ∀ f ∈ requiredFields, m.hasField f = true) :
    m.laidOutFields (natText m.bodyText.length) (calculateChecksum m.checkedText) =
      m.wireFields := by
  rw [laidOutFields, laidOutBody_eq hrequired]
  rfl

/-- A message with the required fields, positive tags and string values without SOH is encoded in
its layout, and stored values of BodyLength and CheckSum have no influence. -/
theorem hasLayout_toString {m : Message} (hrequired : ∀ f ∈ requiredFields, m.hasField f = true)
    (hfields : ∀ f ∈ m.fields.entries, ∃ n s, 0 < n ∧ f = (.tag n, .str s) ∧ SOH ∉ s) :
    ∃ raw length sum, m.toString = .ok raw ∧ m.HasLayout raw length sum ∧
      ∀ n : Message, n.ownFields = m.ownFields → n.toString = .ok raw := by
  have hplain : ∀ f ∈ m.wireFields, PlainField f := by
    refine plainField_of_mem_wireFields hrequired fun f hf => ?_
    obtain ⟨n, s, _, rfl, hs⟩ := hfields f hf
    exact ⟨n, s, rfl, hs⟩
  have hprintable : ∀ f, PlainField f → f.2.Printable := by
    rintro _ ⟨n, s, rfl, _⟩
    rfl
  have htext : m.toString = .ok m.wireText := by
    refine toString_eq_ok_iff.mpr ⟨hrequired, ?_, fun f hf => ?_, rfl⟩
    · exact hprintable m.beginField (hplain _ (by simp [wireFields]))
    · exact hprintable f (hplain f (by simp [wireFields, hf]))
  have hbody := laidOutBody_eq hrequired
  have hwire := laidOutFields_eq hrequired
  have hchecked : m.checkedText = fieldsText (m.laidOutHead (natText m.bodyText.length)) ++
      fieldsText m.laidOutBody := by
    rw [hbody, ← fieldsText_append]
    rfl
  refine ⟨m.wireText, natText m.bodyText.length, calculateChecksum m.checkedText, htext, ?_,
    fun n hn => (toString_eq_of_ownFields_eq hn).trans htext⟩
  refine ⟨?_, ?_, fun f h9 h10 => ?_, ?_, ?_, ?_, ?_, length_calculateChecksum _⟩
  · rw [hwire]
    exact splitOn_fieldsText fun f hf => (hplain f hf).notMem
  · rw [hwire]
    exact m.wireFields_keys_nodup
  · rw [hwire]
    exact mem_wireFields_iff hrequired h9 h10
  · rw [← hchecked, wireText_eq]
    rfl
  · rw [hbody, bodyFields, fieldsText_cons]
    exact (List.prefix_append (js "35=") _).trans (List.prefix_append _ _)
  · rw [hbody]
    rfl
  · rw [← hchecked]
    rfl

/-- A message in an unusual insertion order, with a stale CheckSum. -/
def shuffledNews : Message :=
  ofStrings [(58, js "hi"), (10, js "999"), (52, js "20250101-00:00:00"), (34, js "1"),
    (56, js "B"), (49, js "A"), (35, js "B"), (8, js "FIX.4.4")]

theorem hasLayout_toString_shuffledNews : ∃ raw length sum, shuffledNews.toString = .ok raw ∧
    shuffledNews.HasLayout raw length sum ∧
      ∀ n : Message, n.ownFields = shuffledNews.ownFields → n.toString = .ok raw := by
  refine hasLayout_toString (by decide +kernel) fun f hf => ?_
  obtain ⟨p, hp, rfl⟩ := mem_of_mem_ofStrings hf
  exact ⟨p.1, p.2, (by decide : ∀ p ∈ [(58, js "hi"), (10, js "999"),
    (52, js "20250101-00:00:00"), (34, js "1"), (56, js "B"), (49, js "A"), (35, js "B"),
    (8, js "FIX.4.4")], 0 < p.1 ∧ SOH ∉ p.2) p hp |>.imp_right fun hs => ⟨rfl, hs⟩⟩

end Message

end NestQuickfix
