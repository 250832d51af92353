import NestQuickfix.Message.RoundTrip

/-!
# The trailer in bytes

The receiver counts and sums the bytes of a message, the encoder its UTF-16 code
units. Every character from U+0080 on has more bytes than code units, so BodyLength
is right in bytes exactly for an ASCII body. CheckSum is then right exactly when
BeginString, the only text it sums besides, has the same sum in both countings
modulo 256.
-/

namespace NestQuickfix

open Lib

/-- The sum of a sequence of bytes. -/
def byteSum (bytes : List UInt8) : ℕ := (bytes.map UInt8.toNat).sum

/-- The sum of the code units of a text. -/
def unitSum (s : JSString) : ℕ := (s.map UInt16.toNat).sum

/-- The bytes before `10=`, with the SOHs of BeginString, BodyLength and the body. -/
def checkedBytes (beginString bodyLength body : List UInt8) : List UInt8 :=
  toUtf8 (js "8=") ++ beginString ++ 1 ::
    (toUtf8 (js "9=") ++ bodyLength ++ 1 :: (body ++ [1]))

/-- The bytes of a message with the given contents of its frame. -/
def messageBytes (beginString bodyLength body checkSum : List UInt8) : List UInt8 :=
  checkedBytes beginString bodyLength body ++ (toUtf8 (js "10=") ++ checkSum ++ [1])

/-- A receiver that counts bytes finds BodyLength and CheckSum right: BodyLength
counts the bytes behind it up to the SOH before `10=`, and CheckSum is the sum of
all bytes before `10=` modulo 256 in three digits. -/
def TrailerCorrect (bytes : List UInt8) : Prop :=
  ∃ beginString bodyLength body checkSum,
    bytes = messageBytes beginString bodyLength body checkSum ∧
    1 ∉ beginString ∧ 1 ∉ bodyLength ∧ 1 ∉ checkSum ∧
    bodyLength = toUtf8 (natText (body.length + 1)) ∧
    checkSum = toUtf8 (padStart 3
      (natText (byteSum (checkedBytes beginString bodyLength body) % 256)))

/-- The SOHs of its frame determine the parts of a message. -/
theorem messageBytes_inj {b l d c b' l' d' c' : List UInt8} (hb : 1 ∉ b) (hb' : 1 ∉ b')
    (hl : 1 ∉ l) (hl' : 1 ∉ l') (hc : 1 ∉ c) (hc' : 1 ∉ c')
    (h : messageBytes b l d c = messageBytes b' l' d' c') : b = b' ∧ l = l' ∧ d = d' ∧ c = c' := by
  have h8 : (1 : UInt8) ∉ toUtf8 (js "8=") := by decide
  have h9 : (1 : UInt8) ∉ toUtf8 (js "9=") := by decide
  have h10 : (1 : UInt8) ∉ toUtf8 (js "10=") := by decide
  simp only [messageBytes, checkedBytes, List.append_assoc, List.cons_append, List.nil_append] at h
  rw [← List.append_assoc, ← List.append_assoc (toUtf8 (js "8="))] at h
  obtain ⟨hb8, h⟩ := append_cons_inj_of_notMem_left (by simp [h8, hb]) (by simp [h8, hb']) h
  rw [← List.append_assoc, ← List.append_assoc (toUtf8 (js "9="))] at h
  obtain ⟨hl9, h⟩ := append_cons_inj_of_notMem_left (by simp [h9, hl]) (by simp [h9, hl']) h
  have hlast : (d ++ 1 :: (toUtf8 (js "10=") ++ c)) ++ [1] =
      (d' ++ 1 :: (toUtf8 (js "10=") ++ c')) ++ [1] := by simpa using h
  obtain ⟨hd, hc10⟩ := append_cons_inj_of_notMem_right (by simp [h10, hc]) (by simp [h10, hc'])
    (List.append_inj_left' hlast rfl)
  exact ⟨List.append_cancel_left hb8, List.append_cancel_left hl9, hd,
    List.append_cancel_left hc10⟩

theorem toUtf8_fieldText_append {tag : JSString} (s t : JSString) :
    toUtf8 (tag ++ EQ :: (s ++ SOH :: t)) = toUtf8 (tag ++ [EQ]) ++ toUtf8 s ++ 1 :: toUtf8 t := by
  have hEQ : toUtf8 (EQ :: (s ++ SOH :: t)) = 61 :: toUtf8 (s ++ SOH :: t) :=
    toUtf8_cons_of_lt (by decide) _
  have hSOH : toUtf8 (SOH :: t) = 1 :: toUtf8 t := toUtf8_cons_of_lt (by decide) _
  have hmark : toUtf8 [EQ] = [61] := by decide
  rw [toUtf8_append_cons isSurrogate_EQ, toUtf8_append_cons isSurrogate_EQ, hEQ,
    toUtf8_append_cons isSurrogate_SOH, hSOH, hmark]
  simp

namespace Message

/-- Every value is a string with property `P`. -/
def ValuesSatisfy (m : Message) (P : JSString → Prop) : Prop :=
  ∀ f ∈ m.fields.entries, ∃ s, f.2 = .str s ∧ P s

/-- The body ends in SOH. -/
theorem exists_bodyText_eq (m : Message) : ∃ d, m.bodyText = d ++ [SOH] := by
  have hne : m.bodyFields ≠ [] := by simp [bodyFields]
  obtain ⟨fs, f, hfs⟩ := (List.eq_nil_or_concat m.bodyFields).resolve_left hne
  refine ⟨fieldsText fs ++ bareText f, ?_⟩
  rw [bodyText, hfs]
  simp [fieldText_eq]

/-- The text before CheckSum and its parts. -/
theorem checkedText_eq (m : Message) {d : JSString} (hd : m.bodyText = d ++ [SOH]) :
    m.checkedText = js "8" ++ EQ :: (m.beginField.2.printed ++ SOH ::
      (js "9" ++ EQ :: (natText m.bodyText.length ++ SOH :: (d ++ [SOH])))) := by
  have hbody : fieldsText m.bodyFields = d ++ [SOH] := hd
  have h8 : m.beginField.1.text = js "8" := (by decide : Fields.beginString.text = js "8")
  have h9 : m.lengthField.1.text = js "9" := (by decide : Fields.bodyLength.text = js "9")
  rw [checkedText, fieldsText_cons, fieldsText_cons, hbody, fieldText, fieldText, h8, h9]
  simp [lengthField]

/-- The bytes that the receiver sums. -/
theorem toUtf8_checkedText (m : Message) {d : JSString} (hd : m.bodyText = d ++ [SOH]) :
    toUtf8 m.checkedText = checkedBytes (toUtf8 m.beginField.2.printed)
      (toUtf8 (natText m.bodyText.length)) (toUtf8 d) := by
  have hSOH : toUtf8 [SOH] = [1] := by decide
  rw [m.checkedText_eq hd, toUtf8_fieldText_append, toUtf8_fieldText_append,
    toUtf8_append_cons isSurrogate_SOH, hSOH]
  rfl

/-- The bytes on the wire and their parts. -/
theorem toUtf8_wireText (m : Message) {d : JSString} (hd : m.bodyText = d ++ [SOH]) :
    toUtf8 m.wireText = messageBytes (toUtf8 m.beginField.2.printed)
      (toUtf8 (natText m.bodyText.length)) (toUtf8 d) (toUtf8 (calculateChecksum m.checkedText)) := by
  have hSOH : ∀ t : JSString, toUtf8 (SOH :: t) = 1 :: toUtf8 t := toUtf8_cons_of_lt (by decide)
  have hsplit : ∀ s t : JSString, toUtf8 (s ++ [SOH] ++ t) = toUtf8 (s ++ [SOH]) ++ toUtf8 t := by
    intro s t
    rw [List.append_assoc, List.singleton_append, toUtf8_append_cons isSurrogate_SOH, hSOH,
      toUtf8_append_cons isSurrogate_SOH, hSOH]
    simp [toUtf8, utf16Decode, utf8Encode]
  obtain ⟨x, hx⟩ : ∃ x, m.checkedText = x ++ [SOH] :=
    ⟨fieldsText [m.beginField, m.lengthField] ++ d, by
      rw [checkedText, fieldsText_cons, fieldsText_cons, show fieldsText m.bodyFields = d ++ [SOH]
        from hd]
      simp⟩
  have hsum : fieldText m.checkSumField =
      js "10" ++ EQ :: (calculateChecksum m.checkedText ++ SOH :: []) := by
    rw [fieldText, show m.checkSumField.1.text = js "10" from
      (by decide : Fields.checkSum.text = js "10")]
    rfl
  rw [wireText_eq, hx, hsplit, ← hx, m.toUtf8_checkedText hd, hsum, toUtf8_fieldText_append]
  rfl

/-- The body consists of the fields other than the three that frame it. -/
theorem mem_bodyFields_iff {m : Message} (hrequired : ∀ f ∈ requiredFields, m.hasField f = true)
    {f : Field} : f ∈ m.bodyFields ↔ f ∈ m.fields.entries ∧ f.1 ≠ Fields.beginString ∧
      f.1 ≠ Fields.bodyLength ∧ f.1 ≠ Fields.checkSum := by
  constructor
  · intro hf
    obtain ⟨h8, h9, h10⟩ := key_of_mem_bodyFields hf
    exact ⟨(mem_wireFields_iff hrequired h9 h10).mp (by simp [wireFields, hf]), h8, h9, h10⟩
  · rintro ⟨hf, h8, h9, h10⟩
    have hwire := (mem_wireFields_iff hrequired h9 h10).mpr hf
    simp only [wireFields, List.mem_cons, List.mem_append, List.not_mem_nil, or_false] at hwire
    rcases hwire with rfl | rfl | hbody | rfl
    · exact absurd rfl h8
    · exact absurd rfl h9
    · exact hbody
    · exact absurd rfl h10

end Message

/-! ## Comparing the two countings -/

theorem byteSum_toUtf8_of_isAscii {s : JSString} (h : IsAscii s) :
    byteSum (toUtf8 s) = unitSum s := by
  rw [byteSum, toUtf8_of_isAscii h, List.map_map, unitSum]
  congr 1
  apply List.map_congr_left
  intro u hu
  have hlt := h u hu
  rw [Function.comp_apply, UInt8.toNat_ofNat']
  omega

/-- ASCII texts with the same bytes are the same. -/
theorem toUtf8_inj_of_isAscii {s t : JSString} (hs : IsAscii s) (ht : IsAscii t) :
    toUtf8 s = toUtf8 t ↔ s = t := by
  constructor
  · intro h
    have hback := congrArg ofUtf8 h
    rwa [ofUtf8_toUtf8, ofUtf8_toUtf8, hs.wellFormed, ht.wellFormed] at hback
  · exact congrArg toUtf8

theorem isAscii_padStart (width n : ℕ) : IsAscii (padStart width (natText n)) := by
  intro u hu
  rcases List.mem_append.mp hu with hu | hu
  · rw [(List.mem_replicate.mp hu).2]
    decide
  · exact isAscii_natText n u hu

/-- Leading zeros do not change the value. -/
theorem digitsValue_padStart (width n : ℕ) : digitsValue 10 (padStart width (natText n)) = n := by
  have hzeros : ∀ k (ds : JSString), digitsValue 10 (List.replicate k 48 ++ ds) =
      digitsValue 10 ds := by
    intro k ds
    induction k with
    | zero => rfl
    | succ k ih =>
      rw [← ih]
      rfl
  rw [padStart, hzeros, digitsValue_natText]

theorem padStart_natText_inj {width a b : ℕ} :
    padStart width (natText a) = padStart width (natText b) ↔ a = b := by
  constructor
  · intro h
    rw [← digitsValue_padStart width a, h, digitsValue_padStart]
  · rintro rfl
    rfl

/-- A text of fields is ASCII when its tags and values are. -/
theorem isAscii_fieldsText_iff {fs : List Field} :
    IsAscii (fieldsText fs) ↔ ∀ f ∈ fs, IsAscii f.1.text ∧ IsAscii f.2.printed := by
  have happend : ∀ s t : JSString, IsAscii (s ++ t) ↔ IsAscii s ∧ IsAscii t := fun s t =>
    List.forall_mem_append
  have hseparators : IsAscii [EQ] ∧ IsAscii [SOH] := by decide
  induction fs with
  | nil => simp [IsAscii]
  | cons f fs ih =>
    have hsplit : fieldText f = f.1.text ++ ([EQ] ++ (f.2.printed ++ [SOH])) := rfl
    rw [fieldsText_cons, happend, hsplit, happend, happend, happend, List.forall_mem_cons]
    constructor
    · rintro ⟨⟨htag, _, hvalue, _⟩, hrest⟩
      exact ⟨⟨htag, hvalue⟩, ih.mp hrest⟩
    · rintro ⟨⟨htag, hvalue⟩, hrest⟩
      exact ⟨⟨htag, hseparators.1, hvalue, hseparators.2⟩, ih.mpr hrest⟩

namespace Message

/-- Sums of the two countings: they differ by what they differ on BeginString and the body. -/
theorem byteSum_checkedText {m : Message} (hbody : IsAscii m.bodyText) :
    ∃ k, byteSum (toUtf8 m.checkedText) = byteSum (toUtf8 m.beginField.2.printed) + k ∧
      unitSum m.checkedText = unitSum m.beginField.2.printed + k := by
  obtain ⟨d, hd⟩ := m.exists_bodyText_eq
  have hd' : IsAscii (d ++ [SOH]) := hd ▸ hbody
  let tail := SOH :: (js "9" ++ EQ :: (natText m.bodyText.length ++ SOH :: (d ++ [SOH])))
  have htail : IsAscii tail := by
    have h9 : IsAscii (js "9") := by decide
    have hEQ : EQ.toNat < 128 := by decide
    have hSOH : SOH.toNat < 128 := by decide
    have hlength : IsAscii (natText m.bodyText.length) := isAscii_natText _
    simp only [IsAscii, tail, List.forall_mem_append, List.forall_mem_cons, hEQ, hSOH,
      true_and] at hd' h9 hlength ⊢
    exact ⟨h9, hlength, hd'⟩
  have hhead : IsAscii (js "8" ++ [EQ]) := by decide
  have hsplit : m.checkedText = js "8" ++ EQ :: (m.beginField.2.printed ++ tail) :=
    m.checkedText_eq hd
  refine ⟨unitSum (js "8" ++ [EQ]) + unitSum tail, ?_, ?_⟩
  · have hbytes : toUtf8 m.checkedText = toUtf8 (js "8" ++ [EQ]) ++
        toUtf8 m.beginField.2.printed ++ toUtf8 tail := by
      have hEQ : ∀ t : JSString, toUtf8 (EQ :: t) = 61 :: toUtf8 t := toUtf8_cons_of_lt (by decide)
      have hmark : toUtf8 [EQ] = [61] := by decide
      rw [hsplit, toUtf8_append_cons isSurrogate_EQ, toUtf8_append_cons isSurrogate_EQ, hEQ,
        toUtf8_append_cons isSurrogate_SOH, hmark]
      simp [tail]
    rw [← byteSum_toUtf8_of_isAscii hhead, ← byteSum_toUtf8_of_isAscii htail, hbytes]
    simp only [byteSum, List.map_append, List.sum_append]
    omega
  · rw [hsplit]
    simp only [unitSum, List.map_append, List.map_cons, List.sum_append, List.sum_cons,
      List.map_nil, List.sum_nil]
    omega

/-- BodyLength is right exactly for an ASCII body, and then CheckSum is right exactly
when the two sums of BeginString agree. -/
theorem trailerCorrect_wireText_iff {m : Message}
    (hbegin : SOH ∉ (m.getField Fields.beginString).printed) :
    TrailerCorrect (toUtf8 m.wireText) ↔ IsAscii m.bodyText ∧
      byteSum (toUtf8 (m.getField Fields.beginString).printed) % 256 =
        unitSum (m.getField Fields.beginString).printed % 256 := by
  obtain ⟨d, hd⟩ := m.exists_bodyText_eq
  have hlength : (toUtf8 d).length + 1 = (toUtf8 m.bodyText).length := by
    rw [hd, toUtf8_append_cons isSurrogate_SOH, show toUtf8 [SOH] = [1] by decide]
    simp
  have hsumIff : IsAscii m.bodyText →
      (byteSum (toUtf8 m.checkedText) % 256 = unitSum m.checkedText % 256 ↔
        byteSum (toUtf8 (m.getField Fields.beginString).printed) % 256 =
          unitSum (m.getField Fields.beginString).printed % 256) := by
    intro hascii
    obtain ⟨k, h1, h2⟩ := byteSum_checkedText hascii
    rw [h1, h2]
    simp only [beginField]
    omega
  have hone : ∀ s : JSString, SOH ∉ s → 1 ∉ toUtf8 s :=
    fun s hs hmem => hs (mem_of_mem_toUtf8 (by decide) hmem)
  have hbegin1 : 1 ∉ toUtf8 m.beginField.2.printed := hone _ hbegin
  have hlength1 : 1 ∉ toUtf8 (natText m.bodyText.length) := hone _ (SOH_notMem_natText _)
  have hsum1 : 1 ∉ toUtf8 (calculateChecksum m.checkedText) := by
    apply hone
    intro hmem
    rcases List.mem_append.mp hmem with h | h
    · exact absurd (List.mem_replicate.mp h).2 (by decide)
    · exact SOH_notMem_natText _ h
  rw [m.toUtf8_wireText hd]
  constructor
  · rintro ⟨b', l, d', c, hsame, hb', hl, hc, hlength', hsum'⟩
    obtain ⟨rfl, rfl, rfl, rfl⟩ := messageBytes_inj hbegin1 hb' hlength1 hl hsum1 hc hsame
    have hascii : IsAscii m.bodyText := by
      rw [toUtf8_inj_of_isAscii (isAscii_natText _) (isAscii_natText _), hlength] at hlength'
      exact length_toUtf8_eq_iff.mp (natText_injective hlength').symm
    refine ⟨hascii, (hsumIff hascii).mp ?_⟩
    rw [← m.toUtf8_checkedText hd, calculateChecksum,
      toUtf8_inj_of_isAscii (isAscii_padStart _ _) (isAscii_padStart _ _),
      padStart_natText_inj] at hsum'
    exact hsum'.symm
  · rintro ⟨hascii, hsame⟩
    have hsum := (hsumIff hascii).mpr hsame
    refine ⟨_, _, _, _, rfl, hbegin1, hlength1, hsum1, ?_, ?_⟩
    · rw [hlength, length_toUtf8_eq_iff.mpr hascii]
    · rw [← m.toUtf8_checkedText hd, hsum]
      rfl

/-- BodyLength and CheckSum are right in bytes exactly for messages whose tags and
values outside the frame are ASCII and whose BeginString has the same sum in bytes
and in code units, modulo 256. -/
theorem trailerCorrect_iff {m : Message} {w : JSString} (hw : m.toString = .ok w)
    (hm : m.ValuesSatisfy fun s => WellFormed s ∧ SOH ∉ s) :
    TrailerCorrect (toUtf8 w) ↔
      (∀ f ∈ m.fields.entries, f.1 ≠ Fields.beginString → f.1 ≠ Fields.bodyLength →
        f.1 ≠ Fields.checkSum → IsAscii f.1.text ∧ IsAscii f.2.printed) ∧
      byteSum (toUtf8 (m.getField Fields.beginString).printed) % 256 =
        unitSum (m.getField Fields.beginString).printed % 256 := by
  obtain ⟨hrequired, _, _, rfl⟩ := toString_eq_ok_iff.mp hw
  have hbody : IsAscii m.bodyText ↔
      ∀ f ∈ m.fields.entries, f.1 ≠ Fields.beginString → f.1 ≠ Fields.bodyLength →
        f.1 ≠ Fields.checkSum → IsAscii f.1.text ∧ IsAscii f.2.printed := by
    rw [bodyText, isAscii_fieldsText_iff]
    simp only [mem_bodyFields_iff hrequired, and_imp]
  obtain ⟨b, hb, _, hSOH⟩ := hm _ (mem_of_hasField (hrequired Fields.beginString (by decide)))
  have hbegin : SOH ∉ (m.getField Fields.beginString).printed := by
    rw [show m.getField Fields.beginString = .str b from hb]
    exact hSOH
  rw [trailerCorrect_wireText_iff hbegin, hbody]

theorem valuesSatisfy_ofStrings {pairs : List (ℕ × JSString)} {P : JSString → Prop}
    (h : ∀ p ∈ pairs, P p.2) : (ofStrings pairs).ValuesSatisfy P := by
  intro f hf
  obtain ⟨p, hp, rfl⟩ := mem_of_mem_ofStrings hf
  exact ⟨p.2, rfl, h p hp⟩

theorem trailerCorrect_iff_news :
    TrailerCorrect (toUtf8 (news (js "price 7")).wireText) ↔
      (∀ f ∈ (news (js "price 7")).fields.entries, f.1 ≠ Fields.beginString →
        f.1 ≠ Fields.bodyLength → f.1 ≠ Fields.checkSum →
        IsAscii f.1.text ∧ IsAscii f.2.printed) ∧
      byteSum (toUtf8 ((news (js "price 7")).getField Fields.beginString).printed) % 256 =
        unitSum ((news (js "price 7")).getField Fields.beginString).printed % 256 :=
  trailerCorrect_iff (m := news (js "price 7")) (by decide +kernel)
    (valuesSatisfy_ofStrings (by decide +kernel))

/-- One accented letter makes the trailer wrong. -/
theorem not_trailerCorrect_news :
    (news (js "café")).toString = .ok (news (js "café")).wireText ∧
      (news (js "café")).ValuesSatisfy (fun s => WellFormed s ∧ SOH ∉ s) ∧
      ¬ TrailerCorrect (toUtf8 (news (js "café")).wireText) := by
  refine ⟨by decide +kernel, valuesSatisfy_ofStrings (by decide +kernel), ?_⟩
  rw [trailerCorrect_wireText_iff (by decide +kernel)]
  intro h
  exact absurd h.1 (by decide +kernel)

end Message

end NestQuickfix
