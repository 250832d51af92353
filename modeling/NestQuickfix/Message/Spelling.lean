import Mathlib.Data.List.Induction
import NestQuickfix.Message.Framing

/-!
# Returned fields and the data

The parser patches the text of a piece that lacks its `8=`, coerces tags to numbers and cuts
values at a second `=`. A returned field stands in the data as it is returned only where
nothing of this has an effect.
-/

namespace NestQuickfix

open Lib

/-! ## Readings -/

/-- What the parser takes from a field text, unless it ignores it. -/
def reading (field : JSString) : Option Field :=
  match field.splitOn EQ with
  | tag :: value :: _ =>
    if tag ≠ [] ∧ value ≠ [] then some (.num (parseInt tag), .str value) else none
  | _ => none

/-- The parser stores what it takes from a field text. -/
theorem parseField_eq_reading (m : Message) (field : JSString) :
    parseField m field = (reading field).elim m fun f => m.setField f.1 f.2 := by
  have height : FieldType.num (parseInt (js "8")) = Fields.beginString := by decide
  unfold parseField reading
  rcases field.splitOn EQ with _ | ⟨tag, _ | ⟨value, rest⟩⟩
  · rfl
  · rfl
  · dsimp only
    by_cases hread : tag ≠ [] ∧ value ≠ []
    · rw [if_pos hread, if_pos hread, Option.elim_some]
      by_cases htag : tag = js "8"
      · rw [if_pos htag, htag, height]
      · rw [if_neg htag]
    · rw [if_neg hread, if_neg hread, Option.elim_none]

/-- A value that is taken is not empty and has no `=`. -/
theorem value_of_reading {field : JSString} {f : Field} (h : reading field = some f) :
    ∃ s, f.2 = .str s ∧ s ≠ [] ∧ EQ ∉ s := by
  have hpieces : ∀ piece ∈ field.splitOn EQ, EQ ∉ piece := fun piece hpiece =>
    notMem_of_mem_splitOn hpiece
  unfold reading at h
  rcases hsplit : field.splitOn EQ with _ | ⟨tag, _ | ⟨value, rest⟩⟩
  · simp [hsplit] at h
  · simp [hsplit] at h
  · rw [hsplit] at h hpieces
    dsimp only at h
    split at h
    · next hread =>
      obtain rfl := Option.some.inj h
      exact ⟨value, rfl, hread.2, hpieces value (by simp)⟩
    · cases h

/-- The field texts of a piece of data, with the begin mark restored. -/
def fieldTexts (rawMsg : JSString) : List JSString := (restoreBeginMark rawMsg).splitOn SOH

/-- A piece is parsed by storing what is taken from its field texts. -/
theorem parsePart_eq_readings (rawMsg : JSString) : parsePart rawMsg =
    acceptMessage (Message.empty.setFields ((fieldTexts rawMsg).filterMap reading)) := by
  have hfold : ∀ (texts : List JSString) (m : Message),
      texts.foldl parseField m = m.setFields (texts.filterMap reading) := by
    intro texts
    induction texts with
    | nil => exact fun _ => rfl
    | cons text texts ih =>
      intro m
      rw [List.foldl_cons, ih, parseField_eq_reading, List.filterMap_cons]
      cases reading text with
      | none => rfl
      | some f => rfl
  rw [parsePart_eq, readText, hfold]
  rfl

/-- The fields of a message that is filled one field after the other: the last one of each tag. -/
theorem Message.mem_setFields_iff {fs : List Field} {f : Field} :
    f ∈ (empty.setFields fs).fields.entries ↔
      ∃ gs hs, fs = gs ++ f :: hs ∧ f.1 ∉ hs.map Prod.fst := by
  induction fs using List.reverseRecOn with
  | nil =>
    constructor
    · intro h
      cases h
    · rintro ⟨gs, hs, h, _⟩
      cases gs <;> cases h
  | append_singleton fs g ih =>
    have hset : empty.setFields (fs ++ [g]) = (empty.setFields fs).setField g.1 g.2 := by
      rw [setFields, List.foldl_append]
      rfl
    rw [hset, setField, OrderedMap.mem_entries_set, ih]
    constructor
    · rintro (rfl | ⟨hne, gs, hs, rfl, hlast⟩)
      · exact ⟨fs, [], rfl, by simp⟩
      · exact ⟨gs, hs ++ [g], by simp, by simp [hlast, hne]⟩
    · rintro ⟨gs, hs, hsplit, hlast⟩
      rcases List.eq_nil_or_concat hs with rfl | ⟨hs, g', rfl⟩
      · left
        exact (List.cons.inj (List.append_inj_right' hsplit rfl)).1.symm
      · right
        rw [List.concat_eq_append, ← List.cons_append, ← List.append_assoc] at hsplit
        obtain ⟨rfl, hg⟩ := List.append_inj' hsplit rfl
        obtain rfl := List.singleton_inj.mp hg
        rw [List.concat_eq_append, List.map_append, List.mem_append, not_or] at hlast
        exact ⟨fun h => hlast.2 (by simp [h]), gs, hs, rfl, hlast.1⟩

/-- The tags of such a message. -/
theorem Message.hasField_setFields_iff {fs : List Field} {t : FieldType} :
    (empty.setFields fs).hasField t = true ↔ t ∈ fs.map Prod.fst := by
  have hall : ∀ (fs : List Field) (m : Message),
      (m.setFields fs).hasField t = true ↔ m.hasField t = true ∨ t ∈ fs.map Prod.fst := by
    intro fs
    induction fs with
    | nil =>
      intro m
      simp [setFields]
    | cons f fs ih =>
      intro m
      rw [setFields, List.foldl_cons, ← setFields, ih, hasField_setField, Bool.or_eq_true,
        decide_eq_true_eq, List.map_cons, List.mem_cons]
      tauto
  rw [hall]
  simp [hasField, empty, OrderedMap.has, OrderedMap.keys, OrderedMap.empty]

/-- A tag is taken from a field text of a piece. -/
def HasReading (rawMsg : JSString) (t : FieldType) : Prop :=
  ∃ field ∈ fieldTexts rawMsg, ∃ f ∈ reading field, f.1 = t

/-- A piece has a BeginString, written or patched, and a MsgType. -/
def Returned (rawMsg : JSString) : Prop :=
  HasReading rawMsg Fields.beginString ∧ HasReading rawMsg Fields.msgType

/-- What a piece contributes. -/
theorem parsePart_eq_some_iff {rawMsg : JSString} {m : Message} : parsePart rawMsg = some m ↔
    Returned rawMsg ∧ Message.empty.setFields ((fieldTexts rawMsg).filterMap reading) = m := by
  have hhas : ∀ t, (Message.empty.setFields ((fieldTexts rawMsg).filterMap reading)).hasField t =
      true ↔ HasReading rawMsg t := by
    intro t
    rw [Message.hasField_setFields_iff, List.mem_map]
    constructor
    · rintro ⟨f, hf, rfl⟩
      obtain ⟨field, hfield, hread⟩ := List.mem_filterMap.mp hf
      exact ⟨field, hfield, f, hread, rfl⟩
    · rintro ⟨field, hfield, f, hread, rfl⟩
      exact ⟨f, List.mem_filterMap.mpr ⟨field, hfield, hread⟩, rfl⟩
  rw [parsePart_eq_readings, acceptMessage, Returned, ← hhas, ← hhas]
  split
  · next h => simp only [Bool.and_eq_true] at h; simp [h]
  · next h => simp only [Bool.and_eq_true] at h; simp [h]

/-! ## Fields of the data -/

/-- The complete fields of a text: those that end in SOH. -/
def completeFields (text : JSString) : List JSString := (text.splitOn SOH).dropLast

/-- The integers that are numbers of the source; reading a numeral of any other integer rounds
it to one of them or to infinity. -/
def IsDouble (z : ℤ) : Prop := ∃ m k : ℕ, m < 2 ^ 53 ∧ k ≤ 971 ∧ z.natAbs = m * 2 ^ k

/-- A returned field stands in the text: as a complete field with the decimal spelling of the
tag before the `=` and the value behind it. -/
def StandsIn (text : JSString) (f : Field) : Prop :=
  ∃ (z : ℤ) (s : JSString), IsDouble z ∧ f = (.num (.int z), .str s) ∧
    (Number.int z).text ++ EQ :: s ∈ completeFields text

/-- A field text with a decimal integer before its only `=` and a value behind it. -/
def Canonical (field : JSString) : Prop :=
  ∃ (z : ℤ) (s : JSString), IsDouble z ∧ field = (Number.int z).text ++ EQ :: s ∧ s ≠ [] ∧
    EQ ∉ s

/-- Printed integers contain no `=`. -/
theorem EQ_notMem_text (z : ℤ) : EQ ∉ (Number.int z).text := by
  cases z with
  | ofNat n => exact EQ_notMem_natText n
  | negSucc n =>
    rw [Number.text, List.mem_cons, not_or]
    exact ⟨by decide, EQ_notMem_natText (n + 1)⟩

/-- Printed integers are parsed back. -/
theorem parseInt_text (z : ℤ) : parseInt (Number.int z).text = .int z := by
  cases z with
  | ofNat n => exact parseInt_natText n
  | negSucc n =>
    have hspace : isWhiteSpace 45 = false := by decide
    rw [Number.text, parseInt, List.dropWhile_cons_of_neg (by simp [hspace])]
    simp only [parseMagnitude_natText, Option.elim_some]
    rfl

/-- A canonical field text is read as it is written. -/
theorem reading_canonical {z : ℤ} {s : JSString} (hs : s ≠ []) (hEQ : EQ ∉ s) :
    reading ((Number.int z).text ++ EQ :: s) = some (.num (.int z), .str s) := by
  have htag : (Number.int z).text ≠ [] := by
    cases z with
    | ofNat n => exact natText_ne_nil n
    | negSucc n => exact List.cons_ne_nil _ _
  rw [reading, List.splitOn_append_cons_self_of_not_mem (EQ_notMem_text z),
    List.splitOn_eq_singleton hEQ]
  dsimp only
  rw [if_pos ⟨htag, hs⟩, parseInt_text]

/-- A field that is taken from a text stands in the data exactly when a canonical complete
field of the data is read the same. -/
theorem standsIn_iff {text field : JSString} {f : Field} (h : reading field = some f) :
    StandsIn text f ↔ ∃ φ ∈ completeFields text, Canonical φ ∧ reading φ = some f := by
  constructor
  · rintro ⟨z, s, hz, rfl, hmem⟩
    obtain ⟨s', hvalue, hs, hEQ⟩ := value_of_reading h
    obtain rfl := Value.str.inj hvalue
    exact ⟨_, hmem, ⟨z, s, hz, rfl, hs, hEQ⟩, reading_canonical hs hEQ⟩
  · rintro ⟨φ, hmem, ⟨z, s, hz, rfl, hs, hEQ⟩, hread⟩
    rw [reading_canonical hs hEQ] at hread
    exact ⟨z, s, hz, (Option.some.inj hread).symm, hmem⟩

/-! ## The data of a call -/

/-- The pieces of the data of a call. -/
def pieces (text : JSString) : List JSString := splitSeq (SOH :: beginMark) text

/-- Nothing is fabricated: every returned field stands in the data, and the first piece of
the data yields a message only with the BeginString it begins with. -/
structure NothingFabricated (data : List UInt8) : Prop where
  fields : ∀ m ∈ processData data, ∀ f ∈ m.fields.entries, StandsIn (ofUtf8 data) f
  begins : ∀ first rest, pieces (ofUtf8 data) = first :: rest → ¬ beginMark <+: first →
    parsePart first = none

/-- The condition: if the first piece has a BeginString and a MsgType when `8=` is put before
it, the data begins with `8=`; and in all such pieces every field text that is the last one of
its tag is read like a canonical complete field of the data. -/
structure ReadsAsWritten (text : JSString) : Prop where
  begins : ∀ first rest, pieces text = first :: rest → Returned first → beginMark <+: first
  fields : ∀ rawMsg ∈ pieces text, Returned rawMsg → ∀ before field after f,
    fieldTexts rawMsg = before ++ field :: after → reading field = some f →
      (∀ later ∈ after, ∀ g ∈ reading later, g.1 ≠ f.1) →
        ∃ φ ∈ completeFields text, Canonical φ ∧ reading φ = some f

/-- The readings that are last of their tag are those of field texts that are last of theirs. -/
theorem exists_reading_iff {texts : List JSString} {f : Field} :
    (∃ gs hs, texts.filterMap reading = gs ++ f :: hs ∧ f.1 ∉ hs.map Prod.fst) ↔
      ∃ before field after, texts = before ++ field :: after ∧ reading field = some f ∧
        ∀ later ∈ after, ∀ g ∈ reading later, g.1 ≠ f.1 := by
  constructor
  · rintro ⟨gs, hs, hreadings, hlast⟩
    obtain ⟨before, rest, rfl, _, hrest⟩ := List.filterMap_eq_append_iff.mp hreadings
    obtain ⟨skipped, field, after, rfl, _, hread, hafter⟩ := List.filterMap_eq_cons_iff.mp hrest
    refine ⟨before ++ skipped, field, after, by simp, hread, fun later hlater g hg hkey => ?_⟩
    rw [← hafter, List.mem_map] at hlast
    exact hlast ⟨g, List.mem_filterMap.mpr ⟨later, hlater, hg⟩, hkey⟩
  · rintro ⟨before, field, after, rfl, hread, hlast⟩
    refine ⟨before.filterMap reading, after.filterMap reading, ?_, ?_⟩
    · rw [List.filterMap_append, List.filterMap_cons_some hread]
    · rw [List.mem_map]
      rintro ⟨g, hg, hkey⟩
      obtain ⟨later, hlater, hread'⟩ := List.mem_filterMap.mp hg
      exact hlast later hlater g hread' hkey

/-- For all data, nothing is fabricated exactly when the data meets the condition. -/
theorem nothingFabricated_iff (data : List UInt8) :
    NothingFabricated data ↔ ReadsAsWritten (ofUtf8 data) := by
  have hbegins : ∀ first, parsePart first = none ↔ ¬ Returned first := by
    intro first
    rw [Option.eq_none_iff_forall_not_mem]
    constructor
    · exact fun h hreturned => h _ (parsePart_eq_some_iff.mpr ⟨hreturned, rfl⟩)
    · exact fun h m hm => h (parsePart_eq_some_iff.mp hm).1
  constructor
  · intro h
    refine ⟨fun first rest hpieces hreturned => ?_, ?_⟩
    · by_contra hbegin
      exact (hbegins first).mp (h.begins first rest hpieces hbegin) hreturned
    · intro rawMsg hraw hreturned before field after f hsplit hread hlast
      have hmessage := parsePart_eq_some_iff.mpr ⟨hreturned, rfl⟩
      have hentry := Message.mem_setFields_iff.mpr
        (exists_reading_iff.mpr ⟨before, field, after, hsplit, hread, hlast⟩)
      exact (standsIn_iff hread).mp
        (h.fields _ (List.mem_filterMap.mpr ⟨rawMsg, hraw, hmessage⟩) f hentry)
  · intro h
    constructor
    · intro m hm f hf
      obtain ⟨rawMsg, hraw, hmessage⟩ := List.mem_filterMap.mp hm
      obtain ⟨hreturned, rfl⟩ := parsePart_eq_some_iff.mp hmessage
      obtain ⟨before, field, after, hsplit, hread, hlast⟩ :=
        exists_reading_iff.mp (Message.mem_setFields_iff.mp hf)
      exact (standsIn_iff hread).mpr
        (h.fields rawMsg hraw hreturned before field after f hsplit hread hlast)
    · intro first rest hpieces hbegin
      exact (hbegins first).mpr fun hreturned => hbegin (h.begins first rest hpieces hreturned)

/-- The rest of a message whose beginning came with other data. -/
def restOfMessage : List UInt8 := toUtf8 (js "9=5\x0135=0\x0110=163\x01")

/-- It is returned as a message with a BeginString that is not in the data. -/
theorem not_nothingFabricated_rest : ¬ NothingFabricated restOfMessage := by
  have hreturned : ∃ m ∈ processData restOfMessage,
      (Fields.beginString, .str (js "9")) ∈ m.fields.entries := by decide +kernel
  have habsent : js "8=9" ∉ completeFields (ofUtf8 restOfMessage) := by decide +kernel
  obtain ⟨m, hm, hfield⟩ := hreturned
  intro h
  obtain ⟨z, s, _, heq, hmem⟩ := h.fields m hm _ hfield
  obtain ⟨hz, hs⟩ := Prod.mk.inj heq
  obtain rfl := Number.int.inj (FieldType.num.inj hz)
  obtain rfl := Value.str.inj hs
  exact habsent hmem

end NestQuickfix
