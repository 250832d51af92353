import NestQuickfix.Message.Layout
import NestQuickfix.Protocol.Streaming

/-!
# Validating encoded messages

The declared length counts from the SOH behind BodyLength to the SOH before CheckSum. The parser
of the protocol package counts from the `=` of BodyLength to the last SOH of the text.
-/

namespace NestQuickfix.Protocol

open Lib

/-! ## Finding BodyLength -/

/-- In a text before `rest` no `9=` begins. -/
def NoMark (text rest : JSString) : Prop :=
  ∀ y, y ≠ [] → y <:+ text → ¬ js "9=" <+: y ++ rest

theorem NoMark.of_cons {u : UInt16} {text rest : JSString} (h : NoMark (u :: text) rest) :
    NoMark text rest :=
  fun y hne hy => h y hne (hy.trans (List.suffix_cons u text))

/-- The first `9=` of a text is found where it is. -/
theorem indexOf_append {text rest : JSString} (h : NoMark text (js "9=" ++ rest)) :
    indexOf (js "9=") (text ++ (js "9=" ++ rest)) = text.length := by
  induction text with
  | nil =>
    have hmark : js "9=" <+: 57 :: (EQ :: rest) := List.prefix_append (js "9=") rest
    change indexOf (js "9=") (57 :: (EQ :: rest)) = 0
    rw [indexOf, if_pos hmark]
  | cons u text ih =>
    have hnot : ¬ js "9=" <+: u :: (text ++ (js "9=" ++ rest)) :=
      h (u :: text) (List.cons_ne_nil _ _) List.suffix_rfl
    have hrest := ih h.of_cons
    rw [List.cons_append, indexOf, if_neg hnot, hrest, if_neg (by omega), List.length_cons]
    push_cast
    rfl

/-- The digits behind the first `9=` are the declared length. -/
theorem bodyLengthMatch_append {text digits rest : JSString}
    (h : NoMark text (js "9=" ++ (digits ++ SOH :: rest))) (hne : digits ≠ [])
    (hdigits : ∀ u ∈ digits, isDigit u = true) :
    bodyLengthMatch (text ++ (js "9=" ++ (digits ++ SOH :: rest))) = some digits := by
  induction text with
  | nil =>
    have hmark : js "9=" <+: 57 :: (EQ :: (digits ++ SOH :: rest)) :=
      List.prefix_append (js "9=") _
    have hSOH : isDigit SOH = false := by decide
    have htake : (digits ++ SOH :: rest).takeWhile isDigit = digits := by
      rw [List.takeWhile_append_of_pos hdigits, List.takeWhile_cons_of_neg (by simp [hSOH]),
        List.append_nil]
    have hdrop : (digits ++ SOH :: rest).dropWhile isDigit = SOH :: rest := by
      rw [List.dropWhile_append_of_pos hdigits, List.dropWhile_cons_of_neg (by simp [hSOH])]
    change bodyLengthMatch (57 :: (EQ :: (digits ++ SOH :: rest))) = some digits
    rw [bodyLengthMatch, List.drop_one, List.tail_cons, htake, hdrop, if_pos ⟨hmark, hne, rfl⟩]
  | cons u text ih =>
    have hnot := h (u :: text) (List.cons_ne_nil _ _) List.suffix_rfl
    rw [List.cons_append, bodyLengthMatch, if_neg fun hmatch => hnot hmatch.1]
    exact ih h.of_cons

theorem lastIndexOf_concat (text : JSString) : lastIndexOf SOH (text ++ [SOH]) = text.length := by
  rw [lastIndexOf, if_pos (by simp), List.reverse_append, List.reverse_singleton,
    List.singleton_append, List.idxOf_cons_self, List.length_append, List.length_singleton]
  push_cast
  omega

/-- The length that is compared counts everything between the first `9=` and the last SOH. -/
theorem calculateBodyLength_append {text rest : JSString}
    (h : NoMark text (js "9=" ++ (rest ++ [SOH]))) :
    calculateBodyLength (text ++ (js "9=" ++ rest) ++ [SOH]) = rest.length := by
  have hassoc : text ++ (js "9=" ++ rest) ++ [SOH] = text ++ (js "9=" ++ (rest ++ [SOH])) := by
    simp only [List.append_assoc]
  have hindex : indexOf (js "9=") (text ++ (js "9=" ++ rest) ++ [SOH]) = text.length := by
    rw [hassoc]
    exact indexOf_append h
  have h9 : (js "9=").length = 2 := by decide
  rw [calculateBodyLength, hindex, lastIndexOf_concat, List.length_append, List.length_append, h9]
  push_cast
  omega

/-- No `9=` begins in the text of BeginString. -/
theorem noMark_beginText {value rest : JSString} (h : EQ ∉ value) :
    NoMark (js "8=" ++ (value ++ [SOH])) (js "9=" ++ rest) := by
  have hvalue : EQ ∉ value ++ [SOH] := by
    rw [List.mem_append, List.mem_singleton, not_or]
    exact ⟨h, by decide⟩
  intro y hne hy hmark
  obtain ⟨u, y, rfl⟩ := List.exists_cons_of_ne_nil hne
  have hmark' : 57 :: [EQ] <+: u :: (y ++ (js "9=" ++ rest)) := hmark
  obtain ⟨rfl, hEQ⟩ := List.cons_prefix_cons.mp hmark'
  -- it would be a 9 of the value, and the `=` would be one of the value too
  have hy' : (57 : UInt16) :: y <:+ value ++ [SOH] := by
    have hsuffix : (57 : UInt16) :: y <:+ 56 :: EQ :: (value ++ [SOH]) := hy
    rcases List.suffix_cons_iff.mp hsuffix with heq | hsuffix
    · exact absurd (List.cons.inj heq).1 (by decide)
    · rcases List.suffix_cons_iff.mp hsuffix with heq | hsuffix
      · exact absurd (List.cons.inj heq).1 (by decide)
      · exact hsuffix
  cases y with
  | nil => exact absurd (List.cons_prefix_cons.mp hEQ).1 (by decide)
  | cons v y =>
    obtain rfl : EQ = v := (List.cons_prefix_cons.mp hEQ).1
    exact hvalue (hy'.subset (by simp))

/-! ## Messages -/

/-- The parser accepts the text of a message, and returns its fields with the computed BodyLength
and CheckSum. -/
def AcceptsEncoded (m : Message) (raw : JSString) : Prop :=
  ∃ m', parse raw = .ok m' ∧ ∀ f, f ∈ m'.fields.entries ↔
    (f ∈ m.fields.entries ∧ f.1 ≠ Fields.bodyLength ∧ f.1 ≠ Fields.checkSum) ∨
      f = m.lengthField ∨ f = m.checkSumField

/-- The parts of an encoded message that the length check looks at. -/
theorem wireText_parts (m : Message) : m.wireText =
    js "8=" ++ ((m.getField Fields.beginString).printed ++ [SOH]) ++
      (js "9=" ++ (natText m.bodyText.length ++ SOH ::
        (m.bodyText ++ (js "10=" ++ Message.calculateChecksum m.checkedText)))) ++ [SOH] := by
  have hchecked : m.checkedText = js "8=" ++ ((m.getField Fields.beginString).printed ++ [SOH]) ++
      (js "9=" ++ natText m.bodyText.length ++ [SOH] ++ m.bodyText) :=
    (Message.checkedString_eq m).symm
  have hsum : fieldText m.checkSumField =
      js "10=" ++ Message.calculateChecksum m.checkedText ++ [SOH] := rfl
  rw [Message.wireText_eq, hsum]
  generalize Message.calculateChecksum m.checkedText = sum
  rw [hchecked]
  simp only [List.append_assoc, List.cons_append, List.nil_append]

/-- The parser counts the digits of BodyLength, its SOH, and CheckSum without its own SOH as
well. -/
theorem calculateBodyLength_wireText {m : Message}
    (hbegin : EQ ∉ (m.getField Fields.beginString).printed) :
    calculateBodyLength m.wireText =
      m.bodyText.length + (natText m.bodyText.length).length + 7 := by
  have hsum := length_calculateChecksum m.checkedText
  have h10 : (js "10=").length = 3 := by decide
  rw [wireText_parts, calculateBodyLength_append (noMark_beginText hbegin), List.length_append,
    List.length_cons, List.length_append, List.length_append, hsum, h10]
  push_cast
  omega

/-- The declared length is the one that the encoder has computed. -/
theorem bodyLengthMatch_wireText {m : Message}
    (hbegin : EQ ∉ (m.getField Fields.beginString).printed) :
    bodyLengthMatch m.wireText = some (natText m.bodyText.length) := by
  have hdigits : ∀ u ∈ natText m.bodyText.length, isDigit u = true := fun u hu =>
    decide_eq_true (natText_digits _ u hu)
  have hparts : m.wireText = js "8=" ++ ((m.getField Fields.beginString).printed ++ [SOH]) ++
      (js "9=" ++ (natText m.bodyText.length ++ SOH ::
        (m.bodyText ++ (js "10=" ++ Message.calculateChecksum m.checkedText ++ [SOH])))) := by
    rw [wireText_parts]
    simp only [List.append_assoc, List.cons_append]
  rw [hparts]
  exact bodyLengthMatch_append (noMark_beginText hbegin) (natText_ne_nil _) hdigits

/-- The length check fails for every encoded message. -/
theorem isValidMessageFormat_wireText {m : Message}
    (hbegin : EQ ∉ (m.getField Fields.beginString).printed) :
    isValidMessageFormat m.wireText = false := by
  have hne : parseInt (natText m.bodyText.length) ≠ .int (calculateBodyLength m.wireText) := by
    rw [parseInt_natText, calculateBodyLength_wireText hbegin]
    intro h
    have hlength := Number.int.inj h
    omega
  rw [isValidMessageFormat, bodyLengthMatch_wireText hbegin]
  split
  · rfl
  · exact decide_eq_false hne

/-- The parser accepts no encoded message with a BeginString from FIX on, positive tags and
nonempty ASCII values without SOH and `=`. -/
theorem not_acceptsEncoded {m : Message} {raw : JSString} (hraw : m.toString = .ok raw)
    (_hbegin : js "FIX" <+: (m.getField Fields.beginString).printed)
    (hm : m.FieldsSatisfy Framed) : ¬ AcceptsEncoded m raw := by
  obtain ⟨hrequired, _, _, rfl⟩ := Message.toString_eq_ok_iff.mp hraw
  have hEQ : EQ ∉ (m.getField Fields.beginString).printed := by
    obtain ⟨n, s, _, hfield, _, hs⟩ :=
      hm _ (Message.mem_of_hasField (hrequired Fields.beginString (by decide)))
    rw [(Prod.mk.inj hfield).2]
    exact hs.2.2
  rintro ⟨m', hparse, _⟩
  rw [parse, isValidMessageFormat_wireText hEQ] at hparse
  cases hparse

/-- A news message with its text. -/
theorem not_acceptsEncoded_news :
    ¬ AcceptsEncoded (Message.news (js "hi")) (Message.news (js "hi")).wireText :=
  not_acceptsEncoded (m := Message.news (js "hi")) (by decide +kernel) (by decide)
    (Message.fieldsSatisfy_ofStrings (by decide))

/-- The message declares 47 code units and the parser counts 56. -/
theorem not_acceptsEncoded_counted :
    (Message.news (js "hi")).toString = .ok (Message.news (js "hi")).wireText ∧
      bodyLengthMatch (Message.news (js "hi")).wireText = some (js "47") ∧
      calculateBodyLength (Message.news (js "hi")).wireText = 56 ∧
      ¬ AcceptsEncoded (Message.news (js "hi")) (Message.news (js "hi")).wireText := by
  have hformat : isValidMessageFormat (Message.news (js "hi")).wireText = false := by
    decide +kernel
  refine ⟨by decide +kernel, by decide +kernel, by decide +kernel, ?_⟩
  rintro ⟨m', hparse, _⟩
  rw [parse, hformat] at hparse
  cases hparse

end NestQuickfix.Protocol
