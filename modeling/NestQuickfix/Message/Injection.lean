import NestQuickfix.Message.EntryPoints
import NestQuickfix.Message.Layout

/-!
# Fields inside of values

The encoder writes values as they are. An SOH in a value ends the field for a reader, and what
follows it is read as further fields. These override fields of the same tag before them.
-/

namespace NestQuickfix

open Lib Lib.OrderedMap

/-! ## What is read of a text of fields -/

/-- The pieces of a value behind its first SOH. -/
def injectedPieces (value : JSString) : List JSString :=
  (value.splitOn SOH).tail.filter (· ≠ [])

/-- What is read of the pieces inside the values of some fields. -/
def injectedFields (fs : List Field) : List Field :=
  fs.flatMap fun f => (injectedPieces f.2.printed).map pairField

/-- What is read of a field: its beginning, and the pieces inside its value. -/
def readings (f : Field) : List Field :=
  (f.1, .str (readable ((f.2.printed.splitOn SOH).headD []))) ::
    (injectedPieces f.2.printed).map pairField

/-- A field with a numeric tag whose value is a string. -/
def StringField (f : Field) : Prop := ∃ (n : ℕ) (s : JSString), f = (.tag n, .str s)

theorem pairs_append_cons (s t : JSString) : pairs (s ++ SOH :: t) = pairs s ++ pairs t := by
  rw [pairs, List.splitOn_append_cons_self, List.filter_append]
  rfl

/-- A printed tag and a value are read as a field. -/
theorem pairField_natText (n : ℕ) (value : JSString) :
    pairField (natText n ++ EQ :: value) = (.tag n, .str (readable value)) := by
  obtain ⟨rest, hsplit⟩ := splitOn_eq_readable_cons value
  have hall : (natText n ++ EQ :: value).splitOn EQ = natText n :: readable value :: rest := by
    rw [List.splitOn_append_cons_self_of_not_mem (EQ_notMem_natText n), hsplit]
  obtain ⟨_, htag⟩ := splitOn_eq_readable_cons (natText n ++ EQ :: value)
  rw [pairField, ← (List.cons.inj (hall.symm.trans htag)).1, hall, parseInt_natText]
  rfl

/-- A field is read as its readings. -/
theorem pairs_bareText {f : Field} (hf : StringField f) :
    (pairs (bareText f)).map pairField = readings f := by
  obtain ⟨n, s, rfl⟩ := hf
  obtain ⟨first, rest, hsplit⟩ := List.exists_cons_of_ne_nil (List.splitOn_ne_nil SOH s)
  have htag : SOH ∉ natText n ++ [EQ] := by
    rw [List.mem_append, List.mem_singleton, not_or]
    exact ⟨SOH_notMem_natText n, by decide⟩
  have hbare : bareText (FieldType.tag n, Value.str s) = natText n ++ [EQ] ++ s := by
    rw [List.append_assoc]
    rfl
  rw [pairs, hbare, splitOn_append_of_notMem htag, hsplit, List.modifyHead_cons,
    List.filter_cons_of_pos (by simp), List.map_cons, List.append_assoc]
  rw [List.singleton_append, pairField_natText, readings, injectedPieces, Value.printed_str, hsplit]
  rfl

/-- A text of fields is read as the readings of its fields. -/
theorem pairs_fieldsText {fs : List Field} (hfs : ∀ f ∈ fs, StringField f) :
    (pairs (fieldsText fs)).map pairField = fs.flatMap readings := by
  induction fs with
  | nil => rfl
  | cons f fs ih =>
    rw [fieldsText_cons, fieldText_eq, List.append_assoc, List.singleton_append,
      pairs_append_cons, List.map_append, pairs_bareText (hfs f (by simp)),
      ih fun g hg => hfs g (by simp [hg]), List.flatMap_cons]

/-- What is read of pieces without SOH has neither separator. -/
theorem notMem_of_pairField {piece s : JSString} (hpiece : SOH ∉ piece)
    (h : (pairField piece).2 = .str s) : SOH ∉ s ∧ EQ ∉ s := by
  cases hvalue : (piece.splitOn EQ)[1]? with
  | none =>
    rw [pairField, hvalue] at h
    cases h
  | some value =>
    rw [pairField, hvalue] at h
    obtain rfl := Value.str.inj h
    have hmem : value ∈ piece.splitOn EQ := List.mem_of_getElem? hvalue
    exact ⟨fun hs => hpiece (subset_of_mem_splitOn hmem hs), notMem_of_mem_splitOn hmem⟩

/-- A value without separators is read as it is. -/
theorem readings_of_notMem {f : Field} (hSOH : SOH ∉ f.2.printed) (hEQ : EQ ∉ f.2.printed) :
    readings f = [(f.1, .str f.2.printed)] := by
  rw [readings, injectedPieces, List.splitOn_eq_singleton hSOH]
  simp [readable_eq_self hEQ]

/-- Of fields with other tags, only the injected ones count for a tag. -/
theorem lastValue_readings_of_notMem {fs : List Field} {t : FieldType}
    (h : t ∉ fs.map Prod.fst) :
    lastValue (fs.flatMap readings) t = lastValue (injectedFields fs) t := by
  induction fs with
  | nil => rfl
  | cons f fs ih =>
    rw [List.map_cons, List.mem_cons, not_or] at h
    have hinjected : injectedFields (f :: fs) =
        (injectedPieces f.2.printed).map pairField ++ injectedFields fs := List.flatMap_cons
    rw [List.flatMap_cons, lastValue_append, ih h.2, hinjected, lastValue_append, readings,
      ← List.singleton_append, lastValue_append, lastValue_singleton, if_neg h.1, Option.or_none]

namespace Message

/-! ## Encoded messages -/

/-- The fields whose values a reader relies on. -/
def guardedFields : List FieldType :=
  [Fields.senderCompID, Fields.targetCompID, Fields.msgSeqNum, Fields.msgType]

/-- `parse` reads no tag of a text that the message does not have, apart from BodyLength and
CheckSum, and no other values of the CompIDs, of MsgSeqNum and of MsgType. -/
structure ReadsOwnFields (m : Message) (raw : JSString) : Prop where
  tags : ∀ t v, (FIXMessageParser.parse raw).fields.get? t = some v →
    m.hasField t = true ∨ t = Fields.bodyLength ∨ t = Fields.checkSum
  values : ∀ t ∈ guardedFields, ∀ v, (FIXMessageParser.parse raw).fields.get? t = some v →
    v = m.getField t

/-- The condition: the four values have neither separator; every piece behind an SOH in a value
has a tag of the message, or that of BodyLength or CheckSum; and the last such piece, in the order
of the layout, behind one of the four fields that has its tag repeats its value. -/
structure NotInjected (m : Message) : Prop where
  plain : ∀ t ∈ guardedFields, SOH ∉ (m.getField t).printed ∧ EQ ∉ (m.getField t).printed
  tags : ∀ f ∈ m.ownFields, ∀ piece ∈ injectedPieces f.2.printed,
    m.hasField (pairField piece).1 = true ∨ (pairField piece).1 = Fields.bodyLength ∨
      (pairField piece).1 = Fields.checkSum
  values : ∀ t ∈ guardedFields, ∀ before after,
    m.laidOutBody = before ++ (t, m.getField t) :: after →
      ∀ v, lastValue (injectedFields after) t = some v → v = m.getField t

variable {m : Message}

/-- What `parse` reads of an encoded message. -/
theorem get?_parse_wireText (hrequired : ∀ f ∈ requiredFields, m.hasField f = true)
    (hfields : ∀ f ∈ m.fields.entries, StringField f) (t : FieldType) :
    (FIXMessageParser.parse m.wireText).fields.get? t =
      lastValue (m.wireFields.flatMap readings) t := by
  have hwire : ∀ f ∈ m.wireFields, StringField f := by
    intro f hf
    rcases mem_wireFields_cases hrequired hf with h | rfl | rfl
    · exact hfields f h
    · exact ⟨9, _, rfl⟩
    · exact ⟨10, _, rfl⟩
  rw [fields_parse, get?_ofList, wireText, pairs_fieldsText hwire]

/-- There are no pieces inside of the computed values. -/
theorem injectedPieces_computed (m : Message) : injectedPieces m.lengthField.2.printed = [] ∧
    injectedPieces m.checkSumField.2.printed = [] := by
  obtain ⟨l, c, hl, hc, _, _, hdigits⟩ := m.computed_digits
  have hSOH : SOH ∉ l ++ c := fun hmem => absurd (hdigits SOH hmem) (by decide)
  rw [List.mem_append, not_or] at hSOH
  constructor
  · rw [hl, injectedPieces, Value.printed_str, List.splitOn_eq_singleton hSOH.1]
    rfl
  · rw [hc, injectedPieces, Value.printed_str, List.splitOn_eq_singleton hSOH.2]
    rfl

/-- The four fields are fields of the body, and no other field of the body has their tags. -/
theorem exists_laidOutBody_eq {t : FieldType} (ht : t ∈ guardedFields) :
    ∃ before after, m.laidOutBody = before ++ (t, m.getField t) :: after := by
  refine List.append_of_mem (List.mem_append_left _ (List.mem_map_of_mem ?_))
  exact (by decide : ∀ t ∈ guardedFields, t ∈ [Fields.msgType, Fields.senderCompID,
    Fields.targetCompID, Fields.msgSeqNum, Fields.sendingTime]) t ht

/-- The value that is read for one of the four fields, if it has neither separator: that of the
last piece behind it with its tag, or its own. -/
theorem lastValue_readings_wireFields (hrequired : ∀ f ∈ requiredFields, m.hasField f = true)
    (hfields : ∀ f ∈ m.fields.entries, StringField f) {t : FieldType} (ht : t ∈ guardedFields)
    (hSOH : SOH ∉ (m.getField t).printed) (hEQ : EQ ∉ (m.getField t).printed)
    {before after : List Field} (hbody : m.laidOutBody = before ++ (t, m.getField t) :: after) :
    lastValue (m.wireFields.flatMap readings) t =
      (lastValue (injectedFields after) t).or (some (m.getField t)) := by
  have hwire : m.wireFields = (m.beginField :: m.lengthField :: before) ++
      (t, m.getField t) :: (after ++ [m.checkSumField]) := by
    rw [wireFields, ← laidOutBody_eq hrequired, hbody]
    simp
  have hlater : t ∉ (after ++ [m.checkSumField]).map Prod.fst := by
    have hnodup := m.wireFields_keys_nodup
    rw [hwire, List.map_append, List.map_cons] at hnodup
    exact (List.nodup_cons.mp (List.nodup_append.mp hnodup).2.1).1
  have hown : readings (t, m.getField t) = [(t, m.getField t)] := by
    have hmem : (t, m.getField t) ∈ m.fields.entries := by
      refine mem_of_hasField (hrequired t ?_)
      exact (by decide : ∀ t ∈ guardedFields, t ∈ requiredFields) t ht
    obtain ⟨n, s, hfield⟩ := hfields _ hmem
    rw [readings_of_notMem hSOH hEQ, (Prod.mk.inj hfield).2]
    rfl
  have hinjected : injectedFields (after ++ [m.checkSumField]) = injectedFields after := by
    rw [injectedFields, List.flatMap_append, List.flatMap_singleton,
      (injectedPieces_computed m).2]
    exact List.append_nil _
  have hread : ((t, m.getField t) :: (after ++ [m.checkSumField])).flatMap readings =
      [(t, m.getField t)] ++ (after ++ [m.checkSumField]).flatMap readings := by
    rw [List.flatMap_cons, hown]
  rw [hwire, List.flatMap_append, hread, lastValue_append, lastValue_append,
    lastValue_readings_of_notMem hlater, hinjected, lastValue_singleton, if_pos rfl]
  cases lastValue (injectedFields after) t <;> rfl

/-- The tags that are read of an encoded message. -/
theorem mem_readings_keys_iff (hrequired : ∀ f ∈ requiredFields, m.hasField f = true)
    {t : FieldType} : t ∈ (m.wireFields.flatMap readings).map Prod.fst ↔
      t ∈ m.wireFields.map Prod.fst ∨
        ∃ f ∈ m.ownFields, ∃ piece ∈ injectedPieces f.2.printed, (pairField piece).1 = t := by
  have hown : ∀ f, f ∈ m.ownFields ↔
      f ∈ m.fields.entries ∧ f.1 ≠ Fields.bodyLength ∧ f.1 ≠ Fields.checkSum := by
    intro f
    rw [ownFields, List.mem_filter, decide_eq_true_eq]
  constructor
  · intro h
    obtain ⟨g, hg, rfl⟩ := List.mem_map.mp h
    obtain ⟨f, hf, hread⟩ := List.mem_flatMap.mp hg
    rcases List.mem_cons.mp hread with rfl | hinjected
    · exact Or.inl (List.mem_map.mpr ⟨f, hf, rfl⟩)
    · right
      obtain ⟨piece, hpiece, rfl⟩ := List.mem_map.mp hinjected
      have hne : injectedPieces f.2.printed ≠ [] := List.ne_nil_of_mem hpiece
      have h9 : f.1 ≠ Fields.bodyLength := by
        intro h9
        obtain rfl : f = m.lengthField := List.inj_on_of_nodup_map m.wireFields_keys_nodup hf
          (by simp [wireFields]) h9
        exact hne (injectedPieces_computed m).1
      have h10 : f.1 ≠ Fields.checkSum := by
        intro h10
        obtain rfl : f = m.checkSumField := List.inj_on_of_nodup_map m.wireFields_keys_nodup hf
          (by simp [wireFields]) h10
        exact hne (injectedPieces_computed m).2
      exact ⟨f, (hown f).mpr ⟨(mem_wireFields_iff hrequired h9 h10).mp hf, h9, h10⟩, piece,
        hpiece, rfl⟩
  · rintro (h | ⟨f, hf, piece, hpiece, rfl⟩)
    · obtain ⟨f, hf, rfl⟩ := List.mem_map.mp h
      exact List.mem_map.mpr ⟨_, List.mem_flatMap.mpr ⟨f, hf, List.mem_cons_self⟩, rfl⟩
    · obtain ⟨hmem, h9, h10⟩ := (hown f).mp hf
      exact List.mem_map.mpr ⟨pairField piece, List.mem_flatMap.mpr
        ⟨f, (mem_wireFields_iff hrequired h9 h10).mpr hmem,
          List.mem_cons_of_mem _ (List.mem_map_of_mem hpiece)⟩, rfl⟩

/-- What is read of an encoded message, if it is a string, has neither separator. -/
theorem notMem_of_get?_parse {raw : JSString} {t : FieldType} {s : JSString}
    (h : (FIXMessageParser.parse raw).fields.get? t = some (.str s)) : SOH ∉ s ∧ EQ ∉ s := by
  rw [fields_parse, get?_ofList] at h
  obtain ⟨piece, hpiece, hread⟩ := List.mem_map.mp (mem_of_lastValue_eq_some h)
  have hmem : piece ∈ raw.splitOn SOH := (List.mem_filter.mp hpiece).1
  exact notMem_of_pairField (notMem_of_mem_splitOn hmem) (congrArg Prod.snd hread)

/-- The fields of the text are those of the message, BodyLength and CheckSum. -/
theorem tag_of_mem_wireFields (hrequired : ∀ f ∈ requiredFields, m.hasField f = true)
    {t : FieldType} (ht : t ∈ m.wireFields.map Prod.fst) :
    m.hasField t = true ∨ t = Fields.bodyLength ∨ t = Fields.checkSum := by
  obtain ⟨f, hf, rfl⟩ := List.mem_map.mp ht
  rcases mem_wireFields_cases hrequired hf with hmem | rfl | rfl
  · exact Or.inl (hasField_iff.mpr ⟨f.2, OrderedMap.get?_eq_some_iff.mpr hmem⟩)
  · exact Or.inr (Or.inl rfl)
  · exact Or.inr (Or.inr rfl)

/-- The tags that are read are those with a value. -/
theorem exists_get?_parse_iff (hrequired : ∀ f ∈ requiredFields, m.hasField f = true)
    (hfields : ∀ f ∈ m.fields.entries, StringField f) {t : FieldType} :
    (∃ v, (FIXMessageParser.parse m.wireText).fields.get? t = some v) ↔
      t ∈ (m.wireFields.flatMap readings).map Prod.fst := by
  rw [← Option.ne_none_iff_exists', get?_parse_wireText hrequired hfields, ne_eq,
    lastValue_eq_none_iff, not_not]

/-- A value that is read back has neither separator. -/
theorem ReadsOwnFields.plain (hrequired : ∀ f ∈ requiredFields, m.hasField f = true)
    (hfields : ∀ f ∈ m.fields.entries, StringField f) (h : m.ReadsOwnFields m.wireText) :
    ∀ t ∈ guardedFields, SOH ∉ (m.getField t).printed ∧ EQ ∉ (m.getField t).printed := by
  intro t ht
  have hhas : m.hasField t = true :=
    hrequired t ((by decide : ∀ t ∈ guardedFields, t ∈ requiredFields) t ht)
  obtain ⟨n, s, hfield⟩ := hfields _ (mem_of_hasField hhas)
  obtain ⟨before, after, hbody⟩ := exists_laidOutBody_eq (m := m) ht
  have hkey : t ∈ m.wireFields.map Prod.fst := by
    rw [wireFields, ← laidOutBody_eq hrequired, hbody]
    simp
  obtain ⟨v, hv⟩ := (exists_get?_parse_iff hrequired hfields).mpr
    ((mem_readings_keys_iff hrequired).mpr (Or.inl hkey))
  rw [h.values t ht v hv, (Prod.mk.inj hfield).2] at hv
  rw [(Prod.mk.inj hfield).2]
  exact notMem_of_get?_parse hv

theorem ReadsOwnFields.notInjected (hrequired : ∀ f ∈ requiredFields, m.hasField f = true)
    (hfields : ∀ f ∈ m.fields.entries, StringField f) (h : m.ReadsOwnFields m.wireText) :
    m.NotInjected := by
  have hplain := h.plain hrequired hfields
  refine ⟨hplain, fun f hf piece hpiece => ?_, fun t ht before after hbody v hv => ?_⟩
  · obtain ⟨v, hv⟩ := (exists_get?_parse_iff hrequired hfields).mpr
      ((mem_readings_keys_iff hrequired).mpr (Or.inr ⟨f, hf, piece, hpiece, rfl⟩))
    exact h.tags _ v hv
  · refine h.values t ht v ?_
    rw [get?_parse_wireText hrequired hfields, lastValue_readings_wireFields hrequired hfields ht
      (hplain t ht).1 (hplain t ht).2 hbody, hv]
    rfl

theorem NotInjected.readsOwnFields (hrequired : ∀ f ∈ requiredFields, m.hasField f = true)
    (hfields : ∀ f ∈ m.fields.entries, StringField f) (h : m.NotInjected) :
    m.ReadsOwnFields m.wireText := by
  constructor
  · intro t v hv
    have hkey := (exists_get?_parse_iff hrequired hfields).mp ⟨v, hv⟩
    rcases (mem_readings_keys_iff hrequired).mp hkey with hwire | ⟨f, hf, piece, hpiece, rfl⟩
    · exact tag_of_mem_wireFields hrequired hwire
    · exact h.tags f hf piece hpiece
  · intro t ht v hv
    obtain ⟨before, after, hbody⟩ := exists_laidOutBody_eq (m := m) ht
    obtain ⟨hSOH, hEQ⟩ := h.plain t ht
    rw [get?_parse_wireText hrequired hfields,
      lastValue_readings_wireFields hrequired hfields ht hSOH hEQ hbody] at hv
    cases hlast : lastValue (injectedFields after) t with
    | none =>
      rw [hlast] at hv
      exact (Option.some.inj hv).symm
    | some v' =>
      rw [hlast] at hv
      obtain rfl := Option.some.inj hv
      exact h.values t ht before after hbody v' hlast

/-- From the text of a message with numeric tags and string values its own fields are read exactly
when nothing is injected. -/
theorem readsOwnFields_iff {raw : JSString} (hraw : m.toString = .ok raw)
    (hfields : ∀ f ∈ m.fields.entries, ∃ n s, 0 < n ∧ f = (.tag n, .str s)) :
    m.ReadsOwnFields raw ↔ m.NotInjected := by
  obtain ⟨hrequired, _, _, rfl⟩ := toString_eq_ok_iff.mp hraw
  have hstrings : ∀ f ∈ m.fields.entries, StringField f := by
    intro f hf
    obtain ⟨n, s, _, hfield⟩ := hfields f hf
    exact ⟨n, s, hfield⟩
  exact ⟨fun h => h.notInjected hrequired hstrings, fun h => h.readsOwnFields hrequired hstrings⟩

/-- The text of a news message. -/
theorem readsOwnFields_iff_news :
    (news (js "hi")).ReadsOwnFields (news (js "hi")).wireText ↔ (news (js "hi")).NotInjected := by
  refine readsOwnFields_iff (by decide +kernel) fun f hf => ?_
  obtain ⟨p, hp, rfl⟩ := mem_of_mem_ofStrings hf
  have hpos := (by decide : ∀ p ∈ [(8, js "FIX.4.4"), (35, js "B"), (49, js "A"), (56, js "B"),
    (34, js "1"), (52, js "20250101-00:00:00"), (58, js "hi")], 0 < p.1) p hp
  exact ⟨p.1, p.2, hpos, rfl⟩

/-- A text of a news message that ends with another SenderCompID and an account. -/
def forgingText : JSString := js "hi\x0149=EVE\x011=ACC"

/-- The text replaces the SenderCompID, and adds a field that the message does not have. -/
theorem not_readsOwnFields_forging :
    (news forgingText).toString = .ok (news forgingText).wireText ∧
      (FIXMessageParser.parse (news forgingText).wireText).fields.get? Fields.senderCompID =
        some (.str (js "EVE")) ∧
      (news forgingText).getField Fields.senderCompID = .str (js "A") ∧
      (FIXMessageParser.parse (news forgingText).wireText).fields.get? Fields.account =
        some (.str (js "ACC")) ∧
      (news forgingText).hasField Fields.account = false ∧
      ¬ (news forgingText).ReadsOwnFields (news forgingText).wireText := by
  have hread : (FIXMessageParser.parse (news forgingText).wireText).fields.get?
      Fields.senderCompID = some (.str (js "EVE")) := by decide +kernel
  have hown : (news forgingText).getField Fields.senderCompID = .str (js "A") := by decide +kernel
  refine ⟨by decide +kernel, hread, hown, by decide +kernel, by decide +kernel, fun h => ?_⟩
  have hvalue := h.values Fields.senderCompID (by decide) _ hread
  rw [hown] at hvalue
  exact absurd hvalue (by decide)

end Message

end NestQuickfix
