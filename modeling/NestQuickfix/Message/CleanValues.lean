import NestQuickfix.Message.Chunking
import NestQuickfix.Message.Received
import NestQuickfix.Message.Spelling

/-!
# Clean values

A clean value is printed as a nonempty well-formed text without separators. The parser
returns no other values, and messages of clean values are read back from the stream of
their texts, each with exactly the fields that were written.
-/

namespace NestQuickfix

open Lib

/-- A nonempty well-formed text without separators. -/
def CleanText (s : JSString) : Prop := s ≠ [] ∧ WellFormed s ∧ SOH ∉ s ∧ EQ ∉ s

instance (s : JSString) : Decidable (CleanText s) :=
  inferInstanceAs (Decidable (s ≠ [] ∧ WellFormed s ∧ SOH ∉ s ∧ EQ ∉ s))

/-- A value that is printed as such a text. -/
def Value.Clean (v : Value) : Prop := CleanText v.printed

instance (v : Value) : Decidable v.Clean := inferInstanceAs (Decidable (CleanText v.printed))

/-- A numeric tag. -/
def FieldType.IsTag (t : FieldType) : Prop := ∃ n : ℕ, t = .tag n

instance : (t : FieldType) → Decidable t.IsTag
  | .num (.int (.ofNat n)) => .isTrue ⟨n, rfl⟩
  | .num (.int (.negSucc _)) => .isFalse (by rintro ⟨n, ⟨⟩⟩)
  | .num .nan => .isFalse (by rintro ⟨n, ⟨⟩⟩)
  | .str _ => .isFalse (by rintro ⟨n, ⟨⟩⟩)

/-- A numeric tag that is stored exactly. -/
def FieldType.IsSafeTag (t : FieldType) : Prop := ∃ n : ℕ, n < 2 ^ 53 ∧ t = .tag n

instance : (t : FieldType) → Decidable t.IsSafeTag
  | .num (.int (.ofNat n)) =>
    decidable_of_iff (n < 2 ^ 53) ⟨fun h => ⟨n, h, rfl⟩, by rintro ⟨n, h, ⟨⟩⟩; exact h⟩
  | .num (.int (.negSucc _)) => .isFalse (by rintro ⟨n, -, ⟨⟩⟩)
  | .num .nan => .isFalse (by rintro ⟨n, -, ⟨⟩⟩)
  | .str _ => .isFalse (by rintro ⟨n, -, ⟨⟩⟩)

/-- A field whose value is clean, unless the encoder computes it. -/
def CleanEntry (f : Field) : Prop :=
  f.1.IsTag ∧ (f.1 = Fields.bodyLength ∨ f.1 = Fields.checkSum ∨ f.2.Clean)

instance (f : Field) : Decidable (CleanEntry f) :=
  inferInstanceAs (Decidable (f.1.IsTag ∧ (_ ∨ _ ∨ f.2.Clean)))

namespace Message

/-- A message that is written without damage to the frame. -/
def CleanFields (m : Message) : Prop := ∀ f ∈ m.fields.entries, CleanEntry f

instance (m : Message) : Decidable m.CleanFields :=
  inferInstanceAs (Decidable (∀ f ∈ m.fields.entries, CleanEntry f))

/-- A message whose values are clean, those of absent fields included. -/
def CleanValues (m : Message) : Prop := ∀ t, (m.getField t).Clean

end Message

variable {m : Message} {ms : List Message} {f : Field} {t : FieldType} {v : Value}
  {s x y : JSString}

/-! ## Texts -/

/-- A text of digits and the signs `-`, `.`, `/` and `:`. -/
def IsNumeric (s : JSString) : Prop := ∀ u ∈ s, 45 ≤ u.toNat ∧ u.toNat ≤ 58

instance (s : JSString) : Decidable (IsNumeric s) :=
  List.decidableBAll (fun u : UInt16 => 45 ≤ u.toNat ∧ u.toNat ≤ 58) s

theorem IsNumeric.cleanText (hs : s ≠ []) (h : IsNumeric s) : CleanText s := by
  have hascii : IsAscii s := fun u hu => by
    have hrange := h u hu
    omega
  exact ⟨hs, hascii.wellFormed, fun hmem => absurd (h SOH hmem) (by decide),
    fun hmem => absurd (h EQ hmem) (by decide)⟩

theorem isNumeric_of_digits (h : ∀ u ∈ s, 48 ≤ u.toNat ∧ u.toNat ≤ 57) : IsNumeric s :=
  fun u hu => by
    have hdigit := h u hu
    omega

theorem isNumeric_int (z : ℤ) : IsNumeric (Number.int z).text := by
  cases z with
  | ofNat n => exact isNumeric_of_digits (natText_digits n)
  | negSucc n =>
    have hdigits : IsNumeric (natText (n + 1)) := isNumeric_of_digits (natText_digits (n + 1))
    exact List.forall_mem_cons.mpr ⟨by decide, hdigits⟩

theorem int_text_ne_nil (z : ℤ) : (Number.int z).text ≠ [] := by
  cases z with
  | ofNat n => exact natText_ne_nil n
  | negSucc n => exact List.cons_ne_nil _ _

theorem clean_undefined : Value.undefined.Clean := by decide

theorem clean_num (n : Number) : (Value.num n).Clean := by
  cases n with
  | nan => decide
  | int z => exact (isNumeric_int z).cleanText (int_text_ne_nil z)

/-! ## Pieces of well-formed texts -/

/-- A code unit that is no surrogate cuts a well-formed text into two. -/
theorem wellFormed_append_cons_iff {u : UInt16} (hu : isSurrogate u = false) :
    WellFormed (x ++ u :: y) ↔ WellFormed x ∧ WellFormed y := by
  unfold WellFormed
  rw [toWellFormed_append_cons hu]
  constructor
  · intro h
    obtain ⟨hx, hy⟩ := List.append_inj h (length_toWellFormed x)
    exact ⟨hx, (List.cons.inj hy).2⟩
  · rintro ⟨hx, hy⟩
    rw [hx, hy]

theorem wellFormed_of_append {r : JSString} (hr : ∀ u ∈ r, isSurrogate u = false)
    (h : WellFormed (r ++ y)) : WellFormed y := by
  induction r with
  | nil => exact h
  | cons u r ih =>
    have hu : isSurrogate u = false := hr u List.mem_cons_self
    have htail : WellFormed (r ++ y) := ((wellFormed_append_cons_iff (x := []) hu).mp h).2
    exact ih (fun v hv => hr v (List.mem_cons_of_mem u hv)) htail

/-- The pieces between such code units are well formed. -/
theorem wellFormed_of_mem_splitOn {u : UInt16} (hu : isSurrogate u = false) (hs : WellFormed s)
    (h : x ∈ s.splitOn u) : WellFormed x := by
  induction hn : s.length using Nat.strongRecOn generalizing s with
  | ind n ih =>
    by_cases hmem : u ∈ s
    · obtain ⟨a, b, rfl, ha⟩ := List.eq_append_cons_of_mem hmem
      obtain ⟨hwa, hwb⟩ := (wellFormed_append_cons_iff hu).mp hs
      rw [List.splitOn_append_cons_self_of_not_mem ha, List.mem_cons] at h
      rcases h with rfl | h
      · exact hwa
      · refine ih b.length ?_ hwb h rfl
        rw [← hn, List.length_append, List.length_cons]
        omega
    · rw [List.splitOn_eq_singleton hmem, List.mem_singleton] at h
      rwa [h]

/-- So are the pieces between longer separators. -/
theorem wellFormed_of_mem_splitSeq {u : UInt16} {r : JSString} (hr : u ∉ r)
    (hsep : ∀ v ∈ u :: r, isSurrogate v = false) (hs : WellFormed s)
    (h : x ∈ splitSeq (u :: r) s) : WellFormed x := by
  induction hn : s.length using Nat.strongRecOn generalizing s with
  | ind n ih =>
    by_cases hinfix : u :: r <:+: s
    · obtain ⟨a, b, rfl⟩ := hinfix
      rw [List.append_assoc, List.cons_append] at hs
      obtain ⟨hwa, hwb⟩ := (wellFormed_append_cons_iff (hsep u List.mem_cons_self)).mp hs
      have hwb' : WellFormed b :=
        wellFormed_of_append (fun v hv => hsep v (List.mem_cons_of_mem u hv)) hwb
      rw [List.append_assoc, splitSeq_append_sep_append hr, List.mem_append] at h
      rw [List.length_append, List.length_append, List.length_cons] at hn
      rcases h with h | h
      · exact ih a.length (by omega) hwa h rfl
      · exact ih b.length (by omega) hwb' h rfl
    · rw [splitSeq_eq_singleton hinfix, List.mem_singleton] at h
      rwa [h]

/-- Decoded bytes are well formed. -/
theorem wellFormed_ofUtf8 (bytes : List UInt8) : WellFormed (ofUtf8 bytes) :=
  congrArg utf16Encode (utf16Decode_utf16Encode _)

/-! ## What the parser returns -/

/-- The parser stores clean values only. -/
theorem Message.CleanValues.parseField (h : m.CleanValues) (hwf : WellFormed s) (hSOH : SOH ∉ s) :
    (parseField m s).CleanValues := by
  rw [parseField_eq_reading]
  rcases hread : reading s with _ | f
  · exact h
  · intro t
    rw [Option.elim_some, getField_setField]
    split
    · obtain ⟨value, hvalue, hne, hEQ⟩ := value_of_reading hread
      have hmem : value ∈ s.splitOn EQ := by
        unfold reading at hread
        rcases hsplit : s.splitOn EQ with _ | ⟨tag, _ | ⟨value', rest⟩⟩
        · simp [hsplit] at hread
        · simp [hsplit] at hread
        · rw [hsplit] at hread
          dsimp only at hread
          split at hread
          · obtain rfl := Option.some.inj hread
            rw [Value.str.inj hvalue]
            simp
          · cases hread
      rw [hvalue]
      exact ⟨hne, wellFormed_of_mem_splitOn isSurrogate_EQ hwf hmem,
        fun hin => hSOH (subset_of_mem_splitOn hmem hin), hEQ⟩
    · exact h t

theorem Message.cleanValues_empty : empty.CleanValues := fun _ => clean_undefined

theorem cleanValues_of_parsePart (hwf : WellFormed s) (h : parsePart s = some m) :
    m.CleanValues := by
  -- The split has taken `8=` away from every part but the first.
  have hrestored : WellFormed (restoreBeginMark s) := by
    unfold restoreBeginMark
    split
    · exact hwf
    · have height : isSurrogate 56 = false := by decide
      rw [beginMark_eq]
      exact (wellFormed_append_cons_iff (x := []) height).mpr
        ⟨toWellFormed_nil, (wellFormed_append_cons_iff (x := []) isSurrogate_EQ).mpr
          ⟨toWellFormed_nil, hwf⟩⟩
  have hfold : ∀ (texts : List JSString) (m : Message), m.CleanValues →
      (∀ text ∈ texts, WellFormed text ∧ SOH ∉ text) → (texts.foldl parseField m).CleanValues := by
    intro texts
    induction texts with
    | nil => exact fun m hm _ => hm
    | cons text texts ih =>
      intro m hm htexts
      obtain ⟨hwf, hSOH⟩ := htexts text List.mem_cons_self
      exact ih _ (hm.parseField hwf hSOH) fun text' h' => htexts text' (List.mem_cons_of_mem _ h')
  have hread := hfold ((restoreBeginMark s).splitOn SOH) .empty Message.cleanValues_empty
    fun text htext => ⟨wellFormed_of_mem_splitOn isSurrogate_SOH hrestored htext,
      notMem_of_mem_splitOn htext⟩
  rw [parsePart_eq, acceptMessage] at h
  split at h
  · rw [← Option.some.inj h]
    exact hread
  · cases h

/-- Whatever bytes a peer sends, the values it gets through the parser are clean. -/
theorem cleanValues_of_processData {data : List UInt8} (h : m ∈ processData data) :
    m.CleanValues := by
  obtain ⟨piece, hpiece, hpart⟩ := List.mem_filterMap.mp h
  have hpiece' : piece ∈ splitSeq (SOH :: [56, EQ]) (ofUtf8 data) := by
    rwa [beginMark_eq] at hpiece
  refine cleanValues_of_parsePart (wellFormed_of_mem_splitSeq ?_ ?_ (wellFormed_ofUtf8 data)
    hpiece') hpart
  · decide
  · intro v hv
    simp only [List.mem_cons, List.not_mem_nil, or_false] at hv
    rcases hv with rfl | rfl | rfl <;> decide

/-! ## Building messages -/

namespace Message

theorem cleanFields_empty : empty.CleanFields := fun _ hf => by cases hf

theorem CleanFields.setField (h : m.CleanFields) (hf : CleanEntry f) :
    (m.setField f.1 f.2).CleanFields := by
  intro g hg
  rcases OrderedMap.mem_entries_set.mp hg with rfl | ⟨_, hg⟩
  · exact hf
  · exact h g hg

theorem CleanFields.setFields {fs : List Field} (h : m.CleanFields)
    (hfs : ∀ f ∈ fs, CleanEntry f) : (m.setFields fs).CleanFields := by
  induction fs generalizing m with
  | nil => exact h
  | cons f fs ih =>
    exact ih (h.setField (hfs f List.mem_cons_self)) fun g hg => hfs g (List.mem_cons_of_mem f hg)

/-- An absent field is printed as `undefined`. -/
theorem CleanFields.clean_getField (h : m.CleanFields) (h9 : t ≠ Fields.bodyLength)
    (h10 : t ≠ Fields.checkSum) : (m.getField t).Clean := by
  cases hhas : m.hasField t with
  | true =>
    rcases (h _ (mem_of_hasField hhas)).2 with heq | heq | hclean
    · exact absurd heq h9
    · exact absurd heq h10
    · exact hclean
  | false =>
    have hnone : m.fields.get? t = none := by
      rw [hasField, OrderedMap.has_eq_isSome] at hhas
      exact Option.not_isSome_iff_eq_none.mp (Bool.eq_false_iff.mp hhas)
    rw [getField, hnone]
    exact clean_undefined

theorem CleanFields.createReverse (h : m.CleanFields) : m.createReverse.CleanFields := by
  unfold Message.createReverse
  refine CleanFields.setField (f := (_, _)) (CleanFields.setField (f := (_, _)) ?_ ?_) ?_
  · exact cleanFields_empty.setFields h
  · exact ⟨⟨49, rfl⟩, Or.inr (Or.inr (h.clean_getField (by decide) (by decide)))⟩
  · exact ⟨⟨56, rfl⟩, Or.inr (Or.inr (h.clean_getField (by decide) (by decide)))⟩

end Message

/-! ## Reading messages back -/

/-- A field of the wire that is read back as it is printed. -/
theorem cleanField_of_cleanText {n : ℕ} (hv : v.Clean) :
    CleanField (printedField (.tag n, v)) ∧
      carriedField (printedField (.tag n, v)) = printedField (.tag n, v) := by
  obtain ⟨hne, hwf, hSOH, hEQ⟩ := hv
  refine ⟨⟨n, v.printed, rfl, hne, hSOH, hEQ⟩, ?_⟩
  rw [carriedField, printedField, Value.printed_str, hwf]

/-- What is written of a message of clean values can be read. -/
theorem Message.CleanFields.readable (h : m.CleanFields)
    (hrequired : ∀ f ∈ requiredFields, m.hasField f = true) : m.Readable := by
  intro f' hf'
  obtain ⟨f, hf, rfl⟩ := List.mem_map.mp hf'
  obtain ⟨l, c, hl, hc, hl0, hc0, hdigits⟩ := m.computed_digits
  by_cases h9 : f.1 = Fields.bodyLength
  · have hlength : f = m.lengthField :=
      List.inj_on_of_nodup_map m.wireFields_keys_nodup hf (by simp [wireFields]) h9
    rw [hlength, hl]
    exact cleanField_of_cleanText (v := .str l)
      ((isNumeric_of_digits fun u hu => hdigits u (List.mem_append_left _ hu)).cleanText hl0)
  by_cases h10 : f.1 = Fields.checkSum
  · have hsum : f = m.checkSumField :=
      List.inj_on_of_nodup_map m.wireFields_keys_nodup hf (by simp [wireFields]) h10
    rw [hsum, hc]
    exact cleanField_of_cleanText (v := .str c)
      ((isNumeric_of_digits fun u hu => hdigits u (List.mem_append_right _ hu)).cleanText hc0)
  obtain ⟨⟨n, htag⟩, hvalue⟩ := h f ((mem_wireFields_iff hrequired h9 h10).mp hf)
  obtain ⟨t, v⟩ := f
  obtain rfl : t = .tag n := htag
  rcases hvalue with heq | heq | hclean
  · exact absurd heq h9
  · exact absurd heq h10
  · exact cleanField_of_cleanText hclean

/-- A stream of readable messages reaches the parser unchanged. -/
theorem toWellFormed_streamText_of_readable (hms : ∀ m ∈ ms, m.Readable) :
    toWellFormed (streamText ms) = streamText ms := by
  have hfields : streamText ms = fieldsText (ms.flatMap Message.printedFields) := by
    have htext : streamText ms = ms.flatMap fun m => fieldsText m.printedFields :=
      List.flatMap_congr fun m _ => (Message.fieldsText_printedFields m).symm
    rw [htext, fieldsText, List.flatMap_assoc]
    rfl
  have hread : ∀ f ∈ ms.flatMap Message.printedFields, CleanField f ∧ carriedField f = f := by
    intro f hf
    obtain ⟨m, hm, hf⟩ := List.mem_flatMap.mp hf
    exact hms m hm f hf
  rw [hfields, toWellFormed_fieldsText fun f hf => (hread f hf).1.plainField,
    List.map_congr_left fun f hf => (hread f hf).2, List.map_id']

/-- The text of a readable message begins with a BeginString that does not look like one, and
ends with a separator. -/
theorem Message.Readable.wireText_eq (h : m.Readable) :
    (∃ b t, m.wireText = beginMark ++ (b ++ SOH :: t) ∧ EQ ∉ b) ∧ ∃ q, m.wireText = q ++ [SOH] := by
  constructor
  · have hbegin : CleanField (printedField m.beginField) :=
      (h _ (List.mem_map_of_mem (by simp [wireFields]))).1
    obtain ⟨n, s, heq, _, _, hEQ⟩ := hbegin
    obtain ⟨_, rfl⟩ : _ ∧ m.beginField.2.printed = s := by
      simpa [printedField] using heq
    refine ⟨m.beginField.2.printed, fieldsText (m.lengthField :: (m.bodyFields ++
      [m.checkSumField])), ?_, hEQ⟩
    rw [wireText, wireFields, fieldsText_cons, fieldText, beginMark_eq]
    have height : m.beginField.1.text = [56] :=
      (by decide : Fields.beginString.text = [56])
    simp [height]
  · refine ⟨m.checkedText ++ bareText m.checkSumField, ?_⟩
    rw [Message.wireText_eq, fieldText_eq, List.append_assoc]

/-- One call on a stream of readable messages returns all of them. -/
theorem processData_toUtf8_streamText (hms : ∀ m ∈ ms, m.Readable) :
    processData (toUtf8 (streamText ms)) = ms.map Message.received := by
  rw [processData, ofUtf8_toUtf8, toWellFormed_streamText_of_readable hms]
  induction ms with
  | nil => decide
  | cons m ms ih =>
    have hm : m.Readable := hms m List.mem_cons_self
    have hrest : ∀ n ∈ ms, n.Readable := fun n hn => hms n (List.mem_cons_of_mem m hn)
    have hstart : MessageStart (streamText ms) := by
      cases ms with
      | nil => exact Or.inl rfl
      | cons n ms =>
        obtain ⟨⟨b, t, hwire, hb⟩, _⟩ := (hrest n List.mem_cons_self).wireText_eq
        refine Or.inr (Or.inr ⟨b ++ SOH :: (t ++ streamText ms), ?_, not_beginMark_isPrefix hb _⟩)
        rw [streamText, List.flatMap_cons, hwire]
        simp [streamText]
    have hone : processText m.wireText = [m.received] := by
      have hself : toWellFormed (streamText [m]) = streamText [m] :=
        toWellFormed_streamText_of_readable fun n hn => List.mem_singleton.mp hn ▸ hm
      rw [streamText, List.flatMap_singleton] at hself
      rw [← Message.processData_toUtf8_of_readable hm, processData, ofUtf8_toUtf8, hself]
    obtain ⟨q, hq⟩ := hm.wireText_eq.2
    have hstream : streamText (m :: ms) = m.wireText ++ streamText ms := List.flatMap_cons
    rw [hstream, hq, processText_append_messageStart q hstart, ← hq, hone, ih hrest]
    rfl

end NestQuickfix
