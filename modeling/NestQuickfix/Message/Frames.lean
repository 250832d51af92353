import NestQuickfix.Lib.AsciiBytes
import NestQuickfix.Message.Pieces

/-!
# Frames with repeated tags

A counterparty may send a tag more than once. The field map of a message has one value for
each tag, so the parser returns the last value of a tag and drops the earlier ones.
-/

namespace NestQuickfix

open Lib

/-- A field of a frame: its tag and the bytes of its value. -/
abbrev FrameField := ℕ × List UInt8

/-- The bytes of a frame. -/
def frameBytes (fs : List FrameField) : List UInt8 :=
  fs.flatMap fun f => toUtf8 (natText f.1) ++ 61 :: (f.2 ++ [1])

/-- A frame begins with its only BeginString and has a MsgType; its tags are positive safe
integers, and its values are not empty and have no separators. -/
structure WellFormedFrame (fs : List FrameField) : Prop where
  begins : ∃ value rest, fs = (8, value) :: rest ∧ ∀ f ∈ rest, f.1 ≠ 8
  msgType : ∃ f ∈ fs, f.1 = 35
  tags : ∀ f ∈ fs, 0 < f.1 ∧ f.1 < 2 ^ 53
  values : ∀ f ∈ fs, f.2 ≠ [] ∧ 1 ∉ f.2 ∧ 61 ∉ f.2

/-- A field of a frame can be read from a message. -/
def ReadableFrom (m : Message) (f : FrameField) : Prop :=
  m.getField (.tag f.1) = .str (ofUtf8 f.2)

/-- A field of a frame after the conversion of the bytes to a string. -/
def textField (f : FrameField) : Field := (.tag f.1, .str (ofUtf8 f.2))

theorem tag_injective : Function.Injective FieldType.tag := fun m n h => by
  simpa [FieldType.tag] using h

/-- The bytes of a frame are converted to the text of its fields. -/
theorem ofUtf8_frameBytes (fs : List FrameField) :
    ofUtf8 (frameBytes fs) = fieldsText (fs.map textField) := by
  induction fs with
  | nil => rfl
  | cons f fs ih =>
    have hcons : frameBytes (f :: fs) =
        toUtf8 (natText f.1) ++ 61 :: (f.2 ++ 1 :: frameBytes fs) := by
      simp [frameBytes]
    have htag : ofUtf8 (toUtf8 (natText f.1)) = natText f.1 :=
      (ofUtf8_toUtf8 _).trans (isAscii_natText f.1).wellFormed
    rw [hcons, ofUtf8_append_cons (by decide), ofUtf8_append_cons (by decide), htag, ih,
      List.map_cons, fieldsText_cons, fieldText, List.append_assoc, List.cons_append,
      List.append_assoc]
    rfl

/-- The fields of a well-formed frame are clean. -/
theorem WellFormedFrame.cleanField {fs : List FrameField} (h : WellFormedFrame fs) :
    ∀ g ∈ fs.map textField, CleanField g := by
  intro g hg
  obtain ⟨f, hf, rfl⟩ := List.mem_map.mp hg
  obtain ⟨hne, hSOH, hEQ⟩ := h.values f hf
  refine ⟨f.1, ofUtf8 f.2, rfl, ofUtf8_ne_nil hne, fun hmem => hSOH ?_, fun hmem => hEQ ?_⟩
  · obtain ⟨b, hb, heq⟩ := mem_of_mem_ofUtf8 hmem (by decide) (by decide)
    rwa [UInt8.toNat_inj.mp (heq.trans (by decide : SOH.toNat = (1 : UInt8).toNat))] at hb
  · obtain ⟨b, hb, heq⟩ := mem_of_mem_ofUtf8 hmem (by decide) (by decide)
    rwa [UInt8.toNat_inj.mp (heq.trans (by decide : EQ.toNat = (61 : UInt8).toNat))] at hb

/-- Reading a clean field stores it. -/
theorem CleanField.readField_eq {f : Field} (h : CleanField f) (m : Message) :
    readField m f = m.setField f.1 f.2 := by
  rw [NestQuickfix.readField_eq, h.storedField_eq, Option.elim_some]

/-- The value of a tag is the last one that is read. -/
theorem getField_readFields_last (gs : List Field) {hs : List Field} {f : Field}
    (hf : CleanField f) (hlast : f.1 ∉ hs.map Prod.fst) (m : Message) :
    (readFields m (gs ++ f :: hs)).fields.get? f.1 = some f.2 := by
  have hsplit : readFields m (gs ++ f :: hs) = readFields (readField (readFields m gs) f) hs := by
    rw [readFields, List.foldl_append]
    rfl
  rw [hsplit, get?_readFields_of_notMem hlast, hf.readField_eq, Message.setField,
    OrderedMap.get?_set, if_pos rfl]

/-- A tag that is read is present. -/
theorem hasField_readFields {fs : List Field} (hfs : ∀ f ∈ fs, CleanField f) {f : Field}
    (hf : f ∈ fs) (m : Message) : (readFields m fs).hasField f.1 = true := by
  induction fs generalizing m f with
  | nil => cases hf
  | cons g fs ih =>
    by_cases hlater : f.1 ∈ fs.map Prod.fst
    · obtain ⟨f', hf', hkey⟩ := List.mem_map.mp hlater
      rw [← hkey]
      exact ih (fun f hf => hfs f (List.mem_cons_of_mem g hf)) hf' (readField m g)
    · rcases List.mem_cons.mp hf with rfl | hf
      · exact Message.hasField_iff.mpr
          ⟨_, getField_readFields_last [] (hfs f (by simp)) hlater m⟩
      · exact absurd (List.mem_map_of_mem hf) hlater

/-- A well-formed frame is returned as one message, from which every field can be read whose
tag does not recur later in the frame. -/
theorem readableFrom_processData {fs : List FrameField} (h : WellFormedFrame fs) :
    ∃ m, processData (frameBytes fs) = [m] ∧ ∀ gs f hs, fs = gs ++ f :: hs →
      (∀ g ∈ hs, g.1 ≠ f.1) → ReadableFrom m f := by
  have hclean := h.cleanField
  obtain ⟨value, rest, hfs, hkeys⟩ := h.begins
  obtain ⟨t, ht, htype⟩ := h.msgType
  have hkeys' : ∀ g ∈ rest.map textField, g.1 ≠ Fields.beginString := by
    intro g hg
    obtain ⟨f, hf, rfl⟩ := List.mem_map.mp hg
    exact fun heq => hkeys f hf (tag_injective heq)
  have hbegin : (readFields .empty (fs.map textField)).hasField Fields.beginString = true :=
    hasField_readFields hclean (f := textField (8, value)) (by simp [hfs]) _
  have hmsgType : (readFields .empty (fs.map textField)).hasField Fields.msgType = true := by
    have hpresent := hasField_readFields hclean (List.mem_map_of_mem ht) .empty
    rwa [textField, htype] at hpresent
  have hresult : processData (frameBytes fs) = [readFields .empty (fs.map textField)] := by
    have hmap : fs.map textField = textField (8, value) :: rest.map textField := by
      rw [hfs, List.map_cons]
    rw [processData, ofUtf8_frameBytes, hmap,
      processText_fieldsText (fun g hg => (hclean g (hmap ▸ hg)).plainField) rfl hkeys', ← hmap,
      acceptMessage, hbegin, hmsgType]
    rfl
  refine ⟨_, hresult, ?_⟩
  intro gs f hs hsplit hlast
  have hlast' : (textField f).1 ∉ (hs.map textField).map Prod.fst := by
    rw [List.map_map, List.mem_map]
    rintro ⟨g, hg, heq⟩
    exact hlast g hg (tag_injective heq)
  have hf : CleanField (textField f) := hclean _ (List.mem_map_of_mem (by simp [hsplit]))
  have hvalue := getField_readFields_last (gs.map textField) hf hlast' .empty
  rw [ReadableFrom, Message.getField, hsplit, List.map_append, List.map_cons]
  exact congrArg (Option.getD · Value.undefined) hvalue

/-- A frame with two parties in a repeating group. -/
def partiesFrame : List FrameField :=
  [(8, toUtf8 (js "FIX.4.4")), (9, toUtf8 (js "40")), (35, toUtf8 (js "8")), (453, toUtf8 (js "2")),
    (448, toUtf8 (js "BANK")), (452, toUtf8 (js "1")), (448, toUtf8 (js "FUND")),
    (452, toUtf8 (js "3")), (10, toUtf8 (js "000"))]

/-- Both parties are written as a well-formed frame. -/
theorem wellFormedFrame_parties : WellFormedFrame partiesFrame where
  begins := ⟨_, _, rfl, by decide +kernel⟩
  msgType := by decide +kernel
  tags := by decide +kernel
  values := by decide +kernel

/-- The second party is read. -/
theorem readableFrom_parties : ∃ m, processData (frameBytes partiesFrame) = [m] ∧
    ReadableFrom m (448, toUtf8 (js "FUND")) := by
  obtain ⟨m, hm, hread⟩ := readableFrom_processData wellFormedFrame_parties
  exact ⟨m, hm, hread (partiesFrame.take 6) _ (partiesFrame.drop 7) rfl (by decide +kernel)⟩

/-- The first party is in no field of a returned message. -/
theorem not_readableFrom_parties : WellFormedFrame partiesFrame ∧
    (448, toUtf8 (js "BANK")) ∈ partiesFrame ∧
    ∀ m ∈ processData (frameBytes partiesFrame), ¬ ReadableFrom m (448, toUtf8 (js "BANK")) ∧
      ∀ f ∈ m.fields.entries, f.2 ≠ .str (js "BANK") := by
  refine ⟨wellFormedFrame_parties, by decide +kernel, ?_⟩
  unfold ReadableFrom
  decide +kernel

end NestQuickfix
