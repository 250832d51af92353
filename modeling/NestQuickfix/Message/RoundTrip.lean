import NestQuickfix.Message.Framing

/-!
# Decoding an encoded message

The parser returns the fields of an encoded message, in the order of the wire,
with the values it can read: bytes cannot carry a lone surrogate, and a value
ends before its first `=`. A message survives encoding and decoding exactly when
neither changes one of its values.
-/

namespace NestQuickfix

open Lib

/-- What the parser stores for a field: nothing if no value is readable. -/
def storedField (f : Field) : Option Field :=
  if readable f.2.printed = [] then none else some (f.1, .str (readable f.2.printed))

theorem storedField_str (t : FieldType) (s : JSString) :
    storedField (t, .str s) = if readable s = [] then none else some (t, .str (readable s)) := rfl

theorem readField_eq (m : Message) (f : Field) :
    readField m f = (storedField f).elim m (fun g => m.setField g.1 g.2) := by
  unfold readField storedField
  split <;> rfl

theorem key_of_storedField_eq_some {f g : Field} (h : storedField f = some g) : g.1 = f.1 := by
  unfold storedField at h
  split at h
  · cases h
  · rw [← Option.some.inj h]

/-- Fields with new keys are appended in order. -/
theorem entries_readFields {m : Message} {fs : List Field}
    (hnodup : (m.fields.keys ++ fs.map Prod.fst).Nodup) :
    (readFields m fs).fields.entries = m.fields.entries ++ fs.filterMap storedField := by
  induction fs generalizing m with
  | nil => simp [readFields]
  | cons f fs ih =>
    rw [List.map_cons] at hnodup
    have hfresh : f.1 ∉ m.fields.keys := by
      intro hmem
      exact (List.nodup_append.mp hnodup).2.2 f.1 hmem f.1 (by simp) rfl
    have hskip : (m.fields.keys ++ fs.map Prod.fst).Nodup :=
      hnodup.sublist ((List.sublist_cons_self f.1 _).append_left _)
    have hcons : readFields m (f :: fs) = readFields (readField m f) fs := rfl
    rw [hcons, readField_eq]
    cases hstored : storedField f with
    | none =>
      rw [Option.elim_none, ih hskip, List.filterMap_cons_none hstored]
    | some g =>
      have hkey := key_of_storedField_eq_some hstored
      have hentries : (m.setField g.1 g.2).fields.entries = m.fields.entries ++ [g] :=
        OrderedMap.entries_set_of_notMem g.2 (hkey ▸ hfresh)
      have hkeys : (m.setField g.1 g.2).fields.keys = m.fields.keys ++ [f.1] := by
        rw [OrderedMap.keys, hentries, List.map_append, ← hkey]
        rfl
      have hnext : ((m.setField g.1 g.2).fields.keys ++ fs.map Prod.fst).Nodup := by
        rw [hkeys, List.append_assoc]
        exact hnodup
      rw [Option.elim_some, ih hnext, hentries, List.filterMap_cons_some hstored,
        List.append_assoc]
      rfl

/-- Reading fields with distinct keys into an empty message. -/
theorem entries_readFields_empty {fs : List Field} (hnodup : (fs.map Prod.fst).Nodup) :
    (readFields .empty fs).fields.entries = fs.filterMap storedField := by
  have hnodup' : (Message.empty.fields.keys ++ fs.map Prod.fst).Nodup := by
    simpa [Message.empty] using hnodup
  simpa [Message.empty] using entries_readFields hnodup'

/-- Fields with distinct keys that are stored as they stand are what is read. -/
theorem entries_readFields_of_stored {fs : List Field} (hnodup : (fs.map Prod.fst).Nodup)
    (h : ∀ f ∈ fs, storedField f = some f) : (readFields .empty fs).fields.entries = fs := by
  have hsome : fs.filterMap storedField = fs.filterMap some := List.filterMap_congr h
  rw [entries_readFields_empty hnodup, hsome, List.filterMap_some]

/-! ## What the bytes carry -/

/-- A field as the bytes carry it. -/
def carriedField (f : Field) : Field := (f.1, .str (toWellFormed f.2.printed))

theorem isSurrogate_SOH : isSurrogate SOH = false := by decide

theorem isSurrogate_EQ : isSurrogate EQ = false := by decide

/-- Carrying a plain field does not produce a separator. -/
theorem PlainField.carried {f : Field} (h : PlainField f) : PlainField (carriedField f) := by
  obtain ⟨n, s, rfl, hs⟩ := h
  exact ⟨n, toWellFormed s, rfl, fun hmem => hs (mem_of_mem_toWellFormed (by decide) hmem)⟩

theorem isAscii_natText (n : ℕ) : IsAscii (natText n) := fun u hu => by
  have h := natText_digits n u hu
  omega

/-- Conversion to bytes and back acts on each value separately. -/
theorem toWellFormed_fieldText_append {f : Field} (hf : PlainField f) (t : JSString) :
    toWellFormed (fieldText f ++ t) = fieldText (carriedField f) ++ toWellFormed t := by
  obtain ⟨n, s, rfl, _⟩ := hf
  have htag : toWellFormed (natText n) = natText n := (isAscii_natText n).wellFormed
  have hsplit : fieldText (.tag n, .str s) ++ t = natText n ++ EQ :: (s ++ SOH :: t) := by
    simp [fieldText, FieldType.text, FieldType.tag, Number.text]
  rw [hsplit, toWellFormed_append_cons isSurrogate_EQ, toWellFormed_append_cons isSurrogate_SOH,
    htag]
  simp [fieldText, carriedField, FieldType.text, FieldType.tag, Number.text]

theorem toWellFormed_fieldsText {fs : List Field} (hfs : ∀ f ∈ fs, PlainField f) :
    toWellFormed (fieldsText fs) = fieldsText (fs.map carriedField) := by
  induction fs with
  | nil => rfl
  | cons f fs ih =>
    rw [fieldsText_cons, toWellFormed_fieldText_append (hfs f (by simp)),
      ih fun g hg => hfs g (by simp [hg])]
    rfl

/-! ## The wire of a message -/

namespace Message

/-- Every field has a positive numeric tag and a nonempty string value with property `P`. -/
def FieldsSatisfy (m : Message) (P : JSString → Prop) : Prop :=
  ∀ f ∈ m.fields.entries, ∃ n s, 0 < n ∧ f = (.tag n, .str s) ∧ s ≠ [] ∧ P s

theorem fieldsSatisfy_ofStrings {pairs : List (ℕ × JSString)} {P : JSString → Prop}
    (h : ∀ p ∈ pairs, 0 < p.1 ∧ p.2 ≠ [] ∧ P p.2) : (ofStrings pairs).FieldsSatisfy P := by
  intro f hf
  obtain ⟨p, hp, rfl⟩ := mem_of_mem_ofStrings hf
  exact ⟨p.1, p.2, (h p hp).1, rfl, (h p hp).2⟩

/-- The computed fields are digits, so they are read back unchanged. -/
theorem computed_digits (m : Message) :
    ∃ l c, m.lengthField = (.tag 9, .str l) ∧ m.checkSumField = (.tag 10, .str c) ∧
      l ≠ [] ∧ c ≠ [] ∧ ∀ u ∈ l ++ c, 48 ≤ u.toNat ∧ u.toNat ≤ 57 := by
  refine ⟨_, _, rfl, rfl, natText_ne_nil _, ?_, ?_⟩
  · simp [calculateChecksum, padStart, natText_ne_nil]
  · intro u hu
    simp only [List.mem_append, calculateChecksum, padStart, List.mem_replicate] at hu
    rcases hu with hu | ⟨_, rfl⟩ | hu
    · exact natText_digits _ u hu
    · decide
    · exact natText_digits _ u hu

/-- The fields on the wire are those of the message and the two computed ones. -/
theorem mem_wireFields_cases {m : Message} (hrequired : ∀ f ∈ requiredFields, m.hasField f = true)
    {f : Field} (hf : f ∈ m.wireFields) :
    f ∈ m.fields.entries ∨ f = m.lengthField ∨ f = m.checkSumField := by
  by_cases h9 : f.1 = Fields.bodyLength
  · right
    left
    exact List.inj_on_of_nodup_map m.wireFields_keys_nodup hf (by simp [wireFields]) h9
  · by_cases h10 : f.1 = Fields.checkSum
    · right
      right
      exact List.inj_on_of_nodup_map m.wireFields_keys_nodup hf (by simp [wireFields]) h10
    · left
      exact (mem_wireFields_iff hrequired h9 h10).mp hf

/-- A message of plain fields has plain fields on the wire. -/
theorem plainField_of_mem_wireFields {m : Message}
    (hrequired : ∀ f ∈ requiredFields, m.hasField f = true)
    (hplain : ∀ f ∈ m.fields.entries, PlainField f) : ∀ f ∈ m.wireFields, PlainField f := by
  intro f hf
  obtain ⟨l, c, hl, hc, _, _, hdigits⟩ := m.computed_digits
  have hnoSOH : SOH ∉ l ++ c := fun hmem => absurd (hdigits SOH hmem) (by decide)
  rw [List.mem_append, not_or] at hnoSOH
  rcases mem_wireFields_cases hrequired hf with h | rfl | rfl
  · exact hplain f h
  · exact ⟨9, l, hl, hnoSOH.1⟩
  · exact ⟨10, c, hc, hnoSOH.2⟩

theorem FieldsSatisfy.plainField {m : Message} {P : JSString → Prop} (h : m.FieldsSatisfy P)
    (hP : ∀ s, P s → SOH ∉ s) : ∀ f ∈ m.fields.entries, PlainField f := by
  intro f hf
  obtain ⟨n, s, _, rfl, _, hs⟩ := h f hf
  exact ⟨n, s, rfl, hP s hs⟩

/-- The wire starts with BeginString and no other field has its tag. -/
theorem wireFields_eq_cons (m : Message) :
    ∃ fs, m.wireFields = m.beginField :: fs ∧ ∀ f ∈ fs, f.1 ≠ Fields.beginString := by
  refine ⟨_, rfl, ?_⟩
  intro f hf heq
  have h := m.wireFields_keys_nodup
  rw [wireFields, List.map_cons, List.nodup_cons] at h
  exact h.1 (List.mem_map.mpr ⟨f, hf, heq⟩)

/-- What the parser returns for the bytes of one message. -/
theorem processData_toUtf8_wireText {m : Message}
    (hplain : ∀ f ∈ m.wireFields, PlainField f) :
    processData (toUtf8 m.wireText) =
      (acceptMessage (readFields .empty (m.wireFields.map carriedField))).toList := by
  have hcarried : ∀ f ∈ m.wireFields.map carriedField, PlainField f := by
    intro f hf
    obtain ⟨g, hg, rfl⟩ := List.mem_map.mp hf
    exact (hplain g hg).carried
  rw [processData, ofUtf8_toUtf8, wireText, toWellFormed_fieldsText hplain]
  obtain ⟨fs, hfs, hkey⟩ := m.wireFields_eq_cons
  rw [hfs, List.map_cons] at hcarried ⊢
  apply processText_fieldsText hcarried rfl
  intro g hg
  obtain ⟨f, hf, rfl⟩ := List.mem_map.mp hg
  exact hkey f hf

/-- Decoding restored `m` as `m'`: the same fields other than BodyLength and
CheckSum, which have the values the encoder computed. -/
def RestoredAs (m m' : Message) : Prop :=
  (∀ f : Field, f.1 ≠ Fields.bodyLength → f.1 ≠ Fields.checkSum →
    (f ∈ m'.fields.entries ↔ f ∈ m.fields.entries)) ∧
  m'.fields.get? Fields.bodyLength = some m.lengthField.2 ∧
  m'.fields.get? Fields.checkSum = some m.checkSumField.2

/-- A value that the parser reads as it was written. -/
theorem readable_toWellFormed_eq_self_iff {s : JSString} :
    readable (toWellFormed s) = s ↔ EQ ∉ s ∧ WellFormed s := by
  constructor
  · intro h
    have hEQ : EQ ∉ s := h ▸ notMem_readable _
    have hEQ' : EQ ∉ toWellFormed s := fun hmem => hEQ (mem_of_mem_toWellFormed (by decide) hmem)
    rw [readable_eq_self hEQ'] at h
    exact ⟨hEQ, h⟩
  · rintro ⟨hEQ, hwf⟩
    rw [hwf, readable_eq_self hEQ]

/-- A field is stored as it was written exactly when its value is readable. -/
theorem storedField_carriedField_eq_some_iff {n : ℕ} {s : JSString} (hs : s ≠ []) :
    storedField (carriedField (.tag n, .str s)) = some (.tag n, .str s) ↔
      EQ ∉ s ∧ WellFormed s := by
  have hcarried : carriedField (.tag n, .str s) = (.tag n, .str (toWellFormed s)) := rfl
  rw [← readable_toWellFormed_eq_self_iff, hcarried, storedField_str]
  constructor
  · intro h
    split at h
    · cases h
    · simpa using h
  · intro h
    rw [h, if_neg hs]

/-- The values of the computed fields are readable. -/
theorem storedField_computed (m : Message) :
    storedField (carriedField m.lengthField) = some m.lengthField ∧
      storedField (carriedField m.checkSumField) = some m.checkSumField := by
  obtain ⟨l, c, hl, hc, hl0, hc0, hdigits⟩ := m.computed_digits
  have hreadable : ∀ s : JSString, (∀ u ∈ s, u ∈ l ++ c) → EQ ∉ s ∧ WellFormed s := by
    intro s hs
    refine ⟨fun hmem => absurd (hdigits EQ (hs EQ hmem)) (by decide), IsAscii.wellFormed ?_⟩
    intro u hu
    have h := hdigits u (hs u hu)
    omega
  rw [hl, hc]
  exact ⟨(storedField_carriedField_eq_some_iff hl0).mpr (hreadable l fun u hu => by simp [hu]),
    (storedField_carriedField_eq_some_iff hc0).mpr (hreadable c fun u hu => by simp [hu])⟩

theorem carried_keys (m : Message) :
    (m.wireFields.map carriedField).map Prod.fst = m.wireFields.map Prod.fst := by
  simp [List.map_map, Function.comp_def, carriedField]

/-- The parser stores a field exactly for the wire fields with a readable value. -/
theorem mem_entries_readFields_wireFields {m : Message} {f : Field} :
    f ∈ (readFields .empty (m.wireFields.map carriedField)).fields.entries ↔
      ∃ g ∈ m.wireFields, storedField (carriedField g) = some f := by
  rw [entries_readFields_empty (m.carried_keys ▸ m.wireFields_keys_nodup), List.filterMap_map,
    List.mem_filterMap]
  rfl

/-- If every value is readable, the parser stores the wire fields. -/
theorem readFields_wireFields {m : Message}
    (h : ∀ f ∈ m.wireFields, storedField (carriedField f) = some f) :
    readFields .empty (m.wireFields.map carriedField) = m.encoded := by
  ext1
  apply OrderedMap.ext
  rw [entries_readFields_empty (m.carried_keys ▸ m.wireFields_keys_nodup), List.filterMap_map]
  have hsome : m.wireFields.filterMap (storedField ∘ carriedField) = m.wireFields.filterMap some :=
    List.filterMap_congr h
  rw [hsome, List.filterMap_some]
  rfl

/-- The encoded message passes the presence checks of the parser. -/
theorem acceptMessage_encoded {m : Message} (hrequired : ∀ f ∈ requiredFields, m.hasField f = true) :
    acceptMessage m.encoded = some m.encoded := by
  have hhas : ∀ t ∈ requiredFields, m.encoded.hasField t = true := by
    intro t ht
    have hne : t ≠ Fields.bodyLength ∧ t ≠ Fields.checkSum :=
      (by decide : ∀ t ∈ requiredFields, t ≠ Fields.bodyLength ∧ t ≠ Fields.checkSum) t ht
    have hmem : (t, m.getField t) ∈ m.wireFields :=
      (mem_wireFields_iff hrequired hne.1 hne.2).mpr (mem_of_hasField (hrequired t ht))
    exact hasField_iff.mpr ⟨_, OrderedMap.get?_eq_some_iff.mpr hmem⟩
  rw [acceptMessage, hhas _ (by decide), hhas _ (by decide)]
  rfl

/-- The encoded message restores the original one. -/
theorem restoredAs_encoded {m : Message} (hrequired : ∀ f ∈ requiredFields, m.hasField f = true) :
    m.RestoredAs m.encoded := by
  refine ⟨fun f h9 h10 => mem_wireFields_iff hrequired h9 h10, ?_, ?_⟩
  · exact OrderedMap.get?_eq_some_iff.mpr (by simp [encoded, wireFields, lengthField])
  · exact OrderedMap.get?_eq_some_iff.mpr (by simp [encoded, wireFields, checkSumField])

/-- Decoding undoes encoding exactly for messages in which every value, BodyLength
and CheckSum apart, is a well-formed string without `=`. -/
theorem decode_toString_iff {m : Message} {w : JSString} (hw : m.toString = .ok w)
    (hm : m.FieldsSatisfy (SOH ∉ ·)) :
    (∃ m', processData (toUtf8 w) = [m'] ∧ m.RestoredAs m') ↔
      ∀ f ∈ m.fields.entries, f.1 ≠ Fields.bodyLength → f.1 ≠ Fields.checkSum →
        EQ ∉ f.2.printed ∧ WellFormed f.2.printed := by
  obtain ⟨hrequired, _, _, rfl⟩ := toString_eq_ok_iff.mp hw
  have hplain := plainField_of_mem_wireFields hrequired (hm.plainField fun _ hs => hs)
  rw [processData_toUtf8_wireText hplain]
  constructor
  · rintro ⟨m', hdecode, hrestored, _⟩ f hf h9 h10
    obtain ⟨n, s, _, rfl, hs, _⟩ := hm f hf
    have hm' : m' = readFields .empty (m.wireFields.map carriedField) := by
      unfold acceptMessage at hdecode
      split at hdecode
      · exact (List.cons.inj hdecode).1.symm
      · cases hdecode
    obtain ⟨g, hg, hstored⟩ :=
      mem_entries_readFields_wireFields.mp (hm' ▸ (hrestored _ h9 h10).mpr hf)
    have hwire := (mem_wireFields_iff hrequired h9 h10).mpr hf
    have hkey := key_of_storedField_eq_some hstored
    rw [List.inj_on_of_nodup_map m.wireFields_keys_nodup hg hwire hkey.symm] at hstored
    exact (storedField_carriedField_eq_some_iff hs).mp hstored
  · intro hreadable
    have hstored : ∀ f ∈ m.wireFields, storedField (carriedField f) = some f := by
      intro f hf
      by_cases h9 : f.1 = Fields.bodyLength
      · have hlength : m.lengthField ∈ m.wireFields := by simp [wireFields]
        rw [List.inj_on_of_nodup_map m.wireFields_keys_nodup hf hlength h9]
        exact m.storedField_computed.1
      · by_cases h10 : f.1 = Fields.checkSum
        · have hsum : m.checkSumField ∈ m.wireFields := by simp [wireFields]
          rw [List.inj_on_of_nodup_map m.wireFields_keys_nodup hf hsum h10]
          exact m.storedField_computed.2
        · have hmem := (mem_wireFields_iff hrequired h9 h10).mp hf
          obtain ⟨n, s, _, rfl, hs, _⟩ := hm f hmem
          exact (storedField_carriedField_eq_some_iff hs).mpr (hreadable _ hmem h9 h10)
    rw [readFields_wireFields hstored, acceptMessage_encoded hrequired]
    exact ⟨m.encoded, rfl, restoredAs_encoded hrequired⟩

/-- A news message with the given text. -/
def news (text : JSString) : Message :=
  ofStrings [(8, js "FIX.4.4"), (35, js "B"), (49, js "A"), (56, js "B"), (34, js "1"),
    (52, js "20250101-00:00:00"), (58, text)]

theorem decode_toString_iff_news :
    (∃ m', processData (toUtf8 (news (js "price 7")).wireText) = [m'] ∧
      (news (js "price 7")).RestoredAs m') ↔
      ∀ f ∈ (news (js "price 7")).fields.entries, f.1 ≠ Fields.bodyLength →
        f.1 ≠ Fields.checkSum → EQ ∉ f.2.printed ∧ WellFormed f.2.printed :=
  decode_toString_iff (m := news (js "price 7")) (by decide +kernel)
    (fieldsSatisfy_ofStrings (by decide))

/-- The value `price=7` comes back as `price`. -/
theorem not_restoredAs_news :
    (news (js "price=7")).toString = .ok (news (js "price=7")).wireText ∧
      (news (js "price=7")).FieldsSatisfy (SOH ∉ ·) ∧
      ¬ ∃ m', processData (toUtf8 (news (js "price=7")).wireText) = [m'] ∧
        (news (js "price=7")).RestoredAs m' := by
  refine ⟨by decide +kernel, fieldsSatisfy_ofStrings (by decide), ?_⟩
  rintro ⟨m', hdecode, hrestored, _⟩
  have hmem : ((Fields.text, .str (js "price=7")) : Field) ∈ m'.fields.entries :=
    (hrestored _ (by decide) (by decide)).mpr (by decide)
  have hlost : ∀ m' ∈ processData (toUtf8 (news (js "price=7")).wireText),
      ((Fields.text, .str (js "price=7")) : Field) ∉ m'.fields.entries := by decide +kernel
  exact hlost m' (by simp [hdecode]) hmem

end Message

end NestQuickfix
