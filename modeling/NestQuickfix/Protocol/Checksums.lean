import NestQuickfix.Message.Frames
import NestQuickfix.Message.Injection
import NestQuickfix.Message.Trailer
import NestQuickfix.Protocol.Parser

/-!
# The checksum of a parsed frame

The validator sums a text that it puts together from the field map. What the parser does not
keep is missing there: everything from a second `=` of a field on, and a field whose tag is
repeated. The order of the fields does not matter to the sum.
-/

namespace NestQuickfix.Protocol

open Lib Lib.OrderedMap

@[simp] theorem unitSum_append (s t : JSString) : unitSum (s ++ t) = unitSum s + unitSum t := by
  simp [unitSum]

@[simp] theorem unitSum_nil : unitSum [] = 0 := rfl

@[simp] theorem unitSum_cons (u : UInt16) (s : JSString) :
    unitSum (u :: s) = u.toNat + unitSum s := rfl

theorem unitSum_fieldsText (fs : List Field) :
    unitSum (fieldsText fs) = (fs.map fun f => unitSum (fieldText f)).sum := by
  induction fs with
  | nil => rfl
  | cons f fs ih => rw [fieldsText_cons, unitSum_append, ih, List.map_cons, List.sum_cons]

/-- The checksums of two texts are the same exactly when their sums differ by a multiple of 256. -/
theorem calculateChecksum_inj {s t : JSString} :
    Message.calculateChecksum s = Message.calculateChecksum t ↔
      unitSum s % 256 = unitSum t % 256 := by
  have hvalue : ∀ s : JSString,
      digitsValue 10 (Message.calculateChecksum s) = unitSum s % 256 := by
    intro s
    have hzeros : ∀ (n : ℕ) (ds : JSString),
        digitsValue 10 (List.replicate n 48 ++ ds) = digitsValue 10 ds := by
      intro n ds
      induction n with
      | zero => rfl
      | succ n ih =>
        rw [List.replicate_succ, List.cons_append, digitsValue, List.foldl_cons]
        exact ih
    rw [Message.calculateChecksum, padStart, hzeros, digitsValue_natText]
    rfl
  constructor
  · intro h
    rw [← hvalue s, h, hvalue]
  · intro h
    unfold unitSum at h
    rw [Message.calculateChecksum, h]
    rfl

theorem isDigit_of_mem_calculateChecksum {s : JSString} {u : UInt16}
    (h : u ∈ Message.calculateChecksum s) : isDigit u = true := by
  rw [isDigit, decide_eq_true_iff]
  rcases List.mem_append.mp h with hzero | hdigit
  · rw [(List.mem_replicate.mp hzero).2]
    decide
  · exact natText_digits _ u hdigit

/-! ## What is kept and what is lost -/

/-- The part of a value that the parser does not read: from its first `=` on. -/
def unread (value : JSString) : JSString := value.dropWhile (· ≠ EQ)

/-- A field as the parser stores it: its value is cut at a `=`. -/
def cutField (f : Field) : Field := (f.1, .str (readable f.2.printed))

/-- The fields that are kept, with what is read of their values. -/
def keptFields : List Field → List Field
  | [] => []
  | f :: fs => if f.1 ∈ fs.map Prod.fst then keptFields fs else cutField f :: keptFields fs

/-- The code units that are lost: fields whose tag is repeated later, and unread parts. -/
def lostText : List Field → JSString
  | [] => []
  | f :: fs => (if f.1 ∈ fs.map Prod.fst then fieldText f else unread f.2.printed) ++ lostText fs

theorem unitSum_fieldText (f : Field) :
    unitSum (fieldText f) = unitSum (fieldText (cutField f)) + unitSum (unread f.2.printed) := by
  have hvalue : unitSum f.2.printed =
      unitSum (readable f.2.printed) + unitSum (unread f.2.printed) := by
    rw [← unitSum_append, readable, unread, List.takeWhile_append_dropWhile]
  simp only [fieldText, cutField, unitSum_append, unitSum_cons, Value.printed_str, hvalue]
  omega

/-- Every code unit of a frame is kept or lost. -/
theorem unitSum_kept_add_lost (fs : List Field) :
    unitSum (fieldsText (keptFields fs)) + unitSum (lostText fs) = unitSum (fieldsText fs) := by
  induction fs with
  | nil => rfl
  | cons f fs ih =>
    have hfield := unitSum_fieldText f
    rw [keptFields, lostText, fieldsText_cons, unitSum_append, unitSum_append]
    split
    · omega
    · rw [fieldsText_cons, unitSum_append]
      omega

theorem keptFields_keys_subset (fs : List Field) :
    (keptFields fs).map Prod.fst ⊆ fs.map Prod.fst := by
  induction fs with
  | nil => exact fun _ h => h
  | cons f fs ih =>
    rw [keptFields]
    split
    · exact fun t ht => List.mem_cons_of_mem _ (ih ht)
    · exact List.cons_subset_cons _ ih

theorem keptFields_keys_nodup (fs : List Field) : ((keptFields fs).map Prod.fst).Nodup := by
  induction fs with
  | nil => exact List.nodup_nil
  | cons f fs ih =>
    rw [keptFields]
    split
    · exact ih
    · next hlast => exact List.nodup_cons.mpr ⟨fun h => hlast (keptFields_keys_subset fs h), ih⟩

/-- The kept fields have the last value of every tag. -/
theorem lookup_keptFields (fs : List Field) (t : FieldType) :
    (keptFields fs).lookup t = lastValue (fs.map cutField) t := by
  induction fs with
  | nil => rfl
  | cons f fs ih =>
    have hkeys : (fs.map cutField).map Prod.fst = fs.map Prod.fst := by
      rw [List.map_map]
      rfl
    have hcons : lastValue (cutField f :: fs.map cutField) t =
        ((keptFields fs).lookup t).or (if t = f.1 then some (cutField f).2 else none) := by
      rw [← List.singleton_append, lastValue_append, lastValue_singleton, ih]
      rfl
    rw [List.map_cons, hcons, keptFields]
    by_cases ht : t = f.1
    · subst ht
      rw [if_pos rfl]
      split
      · next hlater =>
        cases hlookup : (keptFields fs).lookup f.1 with
        | none =>
          rw [ih, lastValue_eq_none_iff, hkeys] at hlookup
          exact absurd hlater hlookup
        | some v => rfl
      · next hlast =>
        have hnone : (keptFields fs).lookup f.1 = none := by
          rw [ih, lastValue_eq_none_iff, hkeys]
          exact hlast
        rw [hnone, cutField, List.lookup_cons_self]
        rfl
    · rw [if_neg ht, Option.or_none]
      split
      · rfl
      · rw [List.lookup_cons, beq_false_of_ne (show t ≠ (cutField f).1 from ht)]

/-- The field map of a list of fields has the kept fields, in some order. -/
theorem entries_perm_keptFields (fs : List Field) :
    (ofList (fs.map cutField)).entries.Perm (keptFields fs) := by
  have hmap := (ofList (fs.map cutField)).nodup
  refine (List.perm_ext_iff_of_nodup hmap.of_map (keptFields_keys_nodup fs).of_map).mpr ?_
  rintro ⟨t, v⟩
  rw [← get?_eq_some_iff, get?_ofList, ← lookup_eq_some_iff (keptFields_keys_nodup fs),
    lookup_keptFields]

/-! ## The verdict -/

/-- A field of a frame: its tag and its value. -/
abbrev FrameText := ℕ × JSString

/-- The fields of a frame as fields of a message. -/
def frameFields (frame : List FrameText) : List Field :=
  frame.map fun f => (.tag f.1, .str f.2)

/-- The text of the fields in front of CheckSum. -/
def summedText (frame : List FrameText) : JSString := fieldsText (frameFields frame)

/-- The text of a frame that ends in CheckSum. -/
def frameText (frame : List FrameText) (sum : JSString) : JSString :=
  summedText frame ++ fieldText (Fields.checkSum, .str sum)

/-- The fields in front of CheckSum have positive tags other than 10, which JavaScript reads
exactly, and no value has an SOH. -/
structure SummedFrame (frame : List FrameText) (sum : JSString) : Prop where
  tags : ∀ f ∈ frame, 0 < f.1 ∧ f.1 < 2 ^ 53 ∧ f.1 ≠ 10
  values : ∀ f ∈ frame, SOH ∉ f.2
  sum : SOH ∉ sum

/-- The validator accepts a parsed frame exactly when its CheckSum is right for the received
text. -/
def VerdictOnText (frame : List FrameText) (sum : JSString) : Prop :=
  validate (FIXMessageParser.parse (frameText frame sum)) = true ↔
    sum = Message.calculateChecksum (summedText frame)

/-- The condition: if CheckSum is right, the lost code units sum to a multiple of 256, and if it
is wrong, what is read of it is not the checksum of the rest. -/
structure LossWithoutEffect (frame : List FrameText) (sum : JSString) : Prop where
  right : sum = Message.calculateChecksum (summedText frame) →
    unitSum (lostText (frameFields frame)) % 256 = 0
  wrong : sum ≠ Message.calculateChecksum (summedText frame) →
    readable sum ≠ Message.calculateChecksum (fieldsText (keptFields (frameFields frame)))

variable {frame : List FrameText} {sum : JSString}

/-- What `parse` stores of a frame. -/
theorem fields_parse_frame (h : SummedFrame frame sum) :
    (FIXMessageParser.parse (frameText frame sum)).fields =
      (ofList ((frameFields frame).map cutField)).set Fields.checkSum (.str (readable sum)) := by
  have hread : ∀ (t : FieldType) (s : JSString), SOH ∉ s →
      readings (t, .str s) = [cutField (t, .str s)] := by
    intro t s hs
    rw [readings, injectedPieces, Value.printed_str, List.splitOn_eq_singleton hs]
    rfl
  have hstring : ∀ f ∈ frameFields frame ++ [(Fields.checkSum, Value.str sum)], StringField f := by
    intro f hf
    rcases List.mem_append.mp hf with hf | hf
    · obtain ⟨p, _, rfl⟩ := List.mem_map.mp hf
      exact ⟨p.1, p.2, rfl⟩
    · exact ⟨10, sum, List.mem_singleton.mp hf⟩
  have hreadings : (frameFields frame).flatMap readings = (frameFields frame).map cutField := by
    rw [List.map_eq_flatMap]
    refine List.flatMap_congr fun f hf => ?_
    obtain ⟨p, hp, rfl⟩ := List.mem_map.mp hf
    exact hread _ _ (h.values p hp)
  have htext : frameText frame sum =
      fieldsText (frameFields frame ++ [(Fields.checkSum, Value.str sum)]) := by
    rw [fieldsText_append, fieldsText_cons, fieldsText_nil, List.append_nil]
    rfl
  rw [fields_parse, htext, pairs_fieldsText hstring, List.flatMap_append, hreadings,
    List.flatMap_singleton, hread _ _ h.sum, ofList, List.foldl_append]
  rfl

/-- The validator compares what is read of CheckSum with the checksum of the kept fields. -/
theorem validate_parse_iff (h : SummedFrame frame sum) :
    validate (FIXMessageParser.parse (frameText frame sum)) = true ↔
      readable sum = Message.calculateChecksum (fieldsText (keptFields (frameFields frame))) := by
  have hkey : Fields.checkSum ∉ (ofList ((frameFields frame).map cutField)).keys := by
    intro hmem
    have hkept : Fields.checkSum ∈ (keptFields (frameFields frame)).map Prod.fst :=
      ((entries_perm_keptFields _).map Prod.fst).mem_iff.mp hmem
    obtain ⟨f, hf, heq⟩ := List.mem_map.mp (keptFields_keys_subset _ hkept)
    obtain ⟨p, hp, rfl⟩ := List.mem_map.mp hf
    exact (h.tags p hp).2.2 (tag_injective heq)
  have hentries := entries_set_of_notMem (Value.str (readable sum)) hkey
  have hsummed : (FIXMessageParser.parse (frameText frame sum)).fields.entries.filter
      (fun f => f.1 ≠ Fields.checkSum) = (ofList ((frameFields frame).map cutField)).entries := by
    rw [fields_parse_frame h, hentries, List.filter_append, List.filter_cons_of_neg (by simp),
      List.filter_nil, List.append_nil]
    refine List.filter_eq_self.mpr fun f hf => decide_eq_true ?_
    rintro heq
    exact hkey (List.mem_map.mpr ⟨f, hf, heq⟩)
  have hget : (FIXMessageParser.parse (frameText frame sum)).getField Fields.checkSum =
      .str (readable sum) := by
    rw [Message.getField, fields_parse_frame h, get?_set_self, Option.getD_some]
  have hsum : calculateChecksum (FIXMessageParser.parse (frameText frame sum)) =
      Message.calculateChecksum (fieldsText (keptFields (frameFields frame))) := by
    rw [calculateChecksum, hsummed, calculateChecksum_inj, unitSum_fieldsText, unitSum_fieldsText,
      ((entries_perm_keptFields _).map _).sum_eq]
  rw [validate, decide_eq_true_iff, hget, hsum, Value.str.injEq]

/-- The verdict concerns the received text exactly when no loss has an effect. -/
theorem verdictOnText_iff (h : SummedFrame frame sum) :
    VerdictOnText frame sum ↔ LossWithoutEffect frame sum := by
  have hloss := unitSum_kept_add_lost (frameFields frame)
  have hright : Message.calculateChecksum (summedText frame) =
      Message.calculateChecksum (fieldsText (keptFields (frameFields frame))) ↔
        unitSum (lostText (frameFields frame)) % 256 = 0 := by
    rw [calculateChecksum_inj, summedText]
    omega
  rw [VerdictOnText, validate_parse_iff h]
  by_cases hsum : sum = Message.calculateChecksum (summedText frame)
  · have hread : readable sum = sum := by
      refine readable_eq_self fun hEQ => ?_
      rw [hsum] at hEQ
      exact absurd (isDigit_of_mem_calculateChecksum hEQ) (by decide)
    constructor
    · intro hverdict
      exact ⟨fun _ => hright.mp (by rw [← hsum, ← hread, hverdict.mpr hsum]),
        fun hne => absurd hsum hne⟩
    · intro hcond
      rw [hread, hsum]
      exact iff_of_true (hright.mpr (hcond.right hsum)) rfl
  · constructor
    · exact fun hverdict => ⟨fun heq => absurd heq hsum, fun _ heq => hsum (hverdict.mp heq)⟩
    · exact fun hcond => ⟨fun heq => absurd heq (hcond.wrong hsum), fun heq => absurd heq hsum⟩

/-- A price in a text. -/
def pricedFrame : List FrameText := [(8, js "FIX.4.4"), (35, js "B"), (58, js "price=7")]

theorem verdictOnText_iff_priced :
    VerdictOnText pricedFrame (js "059") ↔ LossWithoutEffect pricedFrame (js "059") :=
  verdictOnText_iff ⟨by decide, by decide, by decide⟩

/-- The right CheckSum is refused: the `=7` is not summed. -/
theorem not_verdictOnText_priced : SummedFrame pricedFrame (js "059") ∧
    js "059" = Message.calculateChecksum (summedText pricedFrame) ∧
    validate (FIXMessageParser.parse (frameText pricedFrame (js "059"))) = false ∧
    ¬ VerdictOnText pricedFrame (js "059") := by
  have hright : js "059" = Message.calculateChecksum (summedText pricedFrame) := by
    decide +kernel
  have hrefused : validate (FIXMessageParser.parse (frameText pricedFrame (js "059"))) = false := by
    decide +kernel
  refine ⟨⟨by decide, by decide, by decide⟩, hright, hrefused, fun hverdict => ?_⟩
  have haccepted := hverdict.mpr hright
  rw [hrefused] at haccepted
  cases haccepted

end NestQuickfix.Protocol
