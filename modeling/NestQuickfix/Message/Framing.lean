import NestQuickfix.Message.Parser
import NestQuickfix.Message.WireFormat

/-!
# Reading field texts

How the parser reads the text of a list of fields, whole or cut off in the
middle. Field texts end in SOH, so every SOH of the text ends a field. A separator of
messages starts with SOH and continues with `8=`: in a message it can only
stand where a field with tag 8 begins.
-/

namespace NestQuickfix

open Lib

/-- The text of a field without its SOH. -/
def bareText (f : Field) : JSString := f.1.text ++ EQ :: f.2.printed

theorem fieldText_eq (f : Field) : fieldText f = bareText f ++ [SOH] := by
  simp [fieldText, bareText]

/-- A field with a numeric tag whose value is a string without SOH. -/
def PlainField (f : Field) : Prop := ∃ (n : ℕ) (s : JSString), f = (.tag n, .str s) ∧ SOH ∉ s

theorem PlainField.notMem {f : Field} (h : PlainField f) : SOH ∉ bareText f := by
  obtain ⟨n, s, rfl, hs⟩ := h
  have hn : SOH ∉ natText n := SOH_notMem_natText n
  have hne : SOH ≠ EQ := by decide
  simp only [bareText, List.mem_append, List.mem_cons, not_or]
  exact ⟨hn, hne, hs⟩

/-- What the parser stores for a field: its readable value, unless that is empty. -/
def readField (m : Message) (f : Field) : Message :=
  if readable f.2.printed = [] then m else m.setField f.1 (.str (readable f.2.printed))

/-- What the parser stores for a list of fields. -/
def readFields (m : Message) (fs : List Field) : Message := fs.foldl readField m

theorem PlainField.parseField_eq {f : Field} (h : PlainField f) (m : Message) :
    parseField m (bareText f) = readField m f := by
  obtain ⟨n, s, rfl, _⟩ := h
  exact parseField_natText m n s

/-- Reading all fields of a text. -/
def readText (m : Message) (text : JSString) : Message := (text.splitOn SOH).foldl parseField m

/-- The fields before an SOH are read before those behind it. -/
theorem readText_append_cons (m : Message) (s t : JSString) :
    readText m (s ++ SOH :: t) = readText (readText m s) t := by
  rw [readText, List.splitOn_append_cons_self, List.foldl_append]
  rfl

/-- A text without SOH is one field. -/
theorem readText_of_notMem (m : Message) {s : JSString} (h : SOH ∉ s) :
    readText m s = parseField m s := by
  rw [readText, List.splitOn_eq_singleton h]
  rfl

@[simp] theorem readText_nil (m : Message) : readText m [] = m := by
  rw [readText_of_notMem m (by simp), parseField_of_notMem m (by simp)]

/-- Reading the text of plain fields reads the fields one after the other. -/
theorem readText_fieldsText_append {fs : List Field} (hfs : ∀ f ∈ fs, PlainField f)
    (m : Message) (tail : JSString) :
    readText m (fieldsText fs ++ tail) = readText (readFields m fs) tail := by
  induction fs generalizing m with
  | nil => rfl
  | cons f fs ih =>
    have hf : PlainField f := hfs f (by simp)
    have hrest : ∀ g ∈ fs, PlainField g := fun g hg => hfs g (by simp [hg])
    rw [fieldsText_cons, fieldText_eq, List.append_assoc, List.append_assoc, List.singleton_append,
      readText_append_cons, readText_of_notMem m hf.notMem, hf.parseField_eq, ih hrest]
    rfl

/-! ## Cutting a text of fields -/

/-- An SOH in a text of plain fields ends one of them. -/
theorem exists_of_fieldsText_eq_append_cons {fs : List Field} (hfs : ∀ f ∈ fs, PlainField f)
    {u v : JSString} (h : fieldsText fs = u ++ SOH :: v) :
    ∃ gs f hs, fs = gs ++ f :: hs ∧ u = fieldsText gs ++ bareText f ∧ v = fieldsText hs := by
  induction fs generalizing u with
  | nil => simp at h
  | cons f fs ih =>
    have hf : PlainField f := hfs f (by simp)
    rw [fieldsText_cons, fieldText_eq, List.append_assoc, List.singleton_append] at h
    rcases append_cons_eq_append_cons hf.notMem h with ⟨rfl, rfl⟩ | ⟨u', rfl, hrest⟩
    · exact ⟨[], f, fs, rfl, rfl, rfl⟩
    · obtain ⟨gs, g, hs, rfl, rfl, rfl⟩ := ih (fun g hg => hfs g (by simp [hg])) hrest
      exact ⟨f :: gs, g, hs, rfl, by simp [fieldText_eq], rfl⟩

/-- A text of plain fields cut off anywhere: whole fields, then a part of the next one. -/
theorem exists_of_isPrefix_fieldsText {fs : List Field} (hfs : ∀ f ∈ fs, PlainField f)
    {p : JSString} (h : p <+: fieldsText fs) :
    p = fieldsText fs ∨ ∃ gs f hs part, fs = gs ++ f :: hs ∧ p = fieldsText gs ++ part ∧
      part <+: bareText f := by
  induction fs generalizing p with
  | nil => exact Or.inl (List.prefix_nil.mp h)
  | cons f fs ih =>
    have hrest : ∀ g ∈ fs, PlainField g := fun g hg => hfs g (by simp [hg])
    rw [fieldsText_cons] at h
    rcases List.prefix_or_prefix_of_prefix h (List.prefix_append (fieldText f) _) with hp | ⟨p', rfl⟩
    · rw [fieldText_eq, List.prefix_concat_iff] at hp
      rcases hp with rfl | hp
      · cases fs with
        | nil => exact Or.inl (by simp [fieldText_eq])
        | cons g gs =>
          exact Or.inr ⟨[f], g, gs, [], rfl, by simp [fieldText_eq], List.nil_prefix⟩
      · exact Or.inr ⟨[], f, fs, p, rfl, rfl, hp⟩
    · rcases ih hrest ((List.prefix_append_right_inj _).mp h) with
        rfl | ⟨gs, g, hs, part, rfl, rfl, hpart⟩
      · exact Or.inl rfl
      · exact Or.inr ⟨f :: gs, g, hs, part, rfl, by simp, hpart⟩

/-! ## Separators of messages -/

theorem beginMark_eq : beginMark = [56, EQ] := by decide

/-- A bare field text starts with `8=` only for tag 8. -/
theorem PlainField.key_eq_of_isPrefix {f : Field} (hf : PlainField f) {rest : JSString}
    (h : beginMark <+: fieldText f ++ rest) : f.1 = Fields.beginString := by
  obtain ⟨n, s, rfl, _⟩ := hf
  obtain ⟨t, ht⟩ := h
  have hleft : EQ ∉ ([56] : JSString) := by decide
  have hn : natText n = [56] := by
    have heq : [56] ++ EQ :: t = natText n ++ EQ :: (s ++ [SOH] ++ rest) := by
      simpa [beginMark_eq, fieldText, FieldType.text, FieldType.tag, Number.text] using ht
    rcases append_cons_eq_append_cons hleft heq with ⟨h1, _⟩ | ⟨u', h1, _⟩
    · exact h1
    · exact absurd (h1 ▸ by simp : EQ ∈ natText n) (EQ_notMem_natText n)
  have h8 : natText n = natText 8 := hn.trans (by decide)
  rw [natText_injective h8]
  rfl

/-- The text of plain fields of which at most the first has tag 8 contains no separator. -/
theorem not_isInfix_separator {f : Field} {fs : List Field} (hfs : ∀ g ∈ f :: fs, PlainField g)
    (hkey : ∀ g ∈ fs, g.1 ≠ Fields.beginString) :
    ¬ (SOH :: beginMark) <:+: fieldsText (f :: fs) := by
  rintro ⟨u, v, h⟩
  rw [List.append_assoc, List.cons_append] at h
  obtain ⟨gs, g, hs, heq, _, hv⟩ := exists_of_fieldsText_eq_append_cons hfs h.symm
  have hmem : ∀ x ∈ hs, x ∈ fs := by
    cases gs with
    | nil =>
      obtain ⟨_, rfl⟩ := List.cons.inj heq
      exact fun x hx => hx
    | cons x gs =>
      obtain ⟨_, rfl⟩ := List.cons.inj heq
      exact fun y hy => by simp [hy]
  cases hs with
  | nil => simp [beginMark_eq] at hv
  | cons x hs =>
    have hx : x ∈ fs := hmem x (by simp)
    have hp : beginMark <+: fieldText x ++ fieldsText hs := ⟨v, hv⟩
    exact hkey x hx ((hfs x (by simp [hx])).key_eq_of_isPrefix hp)

/-! ## The parts of a chunk -/

/-- The presence checks that decide whether a part is returned. -/
def acceptMessage (m : Message) : Option Message :=
  if m.hasField Fields.beginString && m.hasField Fields.msgType then some m else none

/-- A part is read field by field and then checked; an empty part fails the check. -/
theorem parsePart_eq (s : JSString) :
    parsePart s = acceptMessage (readText .empty (restoreBeginMark s)) := by
  by_cases hs : s = []
  · subst hs
    decide
  · rw [parsePart, if_neg hs, parseRawMessage, acceptMessage, readText]
    cases h8 : Message.hasField (List.foldl parseField Message.empty
        (List.splitOn SOH (restoreBeginMark s))) Fields.beginString with
    | false => simp [Except.toOption]
    | true =>
      cases h35 : Message.hasField (List.foldl parseField Message.empty
          (List.splitOn SOH (restoreBeginMark s))) Fields.msgType with
      | false => simp [Except.toOption]
      | true => simp [Except.toOption]

/-- Text that cannot complete a begin mark does not change whether it is restored. -/
theorem restoreBeginMark_append_cons (s t : JSString) :
    restoreBeginMark (s ++ SOH :: t) = restoreBeginMark s ++ SOH :: t := by
  have hiff : beginMark <+: s ++ SOH :: t ↔ beginMark <+: s := by
    constructor
    · intro h
      rw [beginMark_eq] at h ⊢
      match s, h with
      | [], h => exact absurd (List.cons_prefix_cons.mp h).1 (by decide)
      | [a], h =>
        have h2 := (List.cons_prefix_cons.mp h).2
        exact absurd (List.cons_prefix_cons.mp h2).1 (by decide)
      | a :: b :: s, h =>
        obtain ⟨rfl, h2⟩ := List.cons_prefix_cons.mp h
        obtain ⟨rfl, _⟩ := List.cons_prefix_cons.mp h2
        exact ⟨s, rfl⟩
    · intro h
      exact h.trans (List.prefix_append s _)
  by_cases hs : beginMark <+: s
  · rw [restoreBeginMark, if_pos (hiff.mpr hs), restoreBeginMark, if_pos hs]
  · rw [restoreBeginMark, if_neg (fun h => hs (hiff.mp h)), restoreBeginMark, if_neg hs,
      List.append_assoc]

/-- What follows the last SOH of a part does not matter when it has no `=`. -/
theorem parsePart_append_cons (s : JSString) {t : JSString} (hsoh : SOH ∉ t) (heq : EQ ∉ t) :
    parsePart (s ++ SOH :: t) = parsePart s := by
  rw [parsePart_eq, parsePart_eq, restoreBeginMark_append_cons, readText_append_cons,
    readText_of_notMem _ hsoh, parseField_of_notMem _ heq]

/-- Data that ends in SOH, with or without one more `8`, gives what it gives before. -/
theorem processText_append_cons (q : JSString) {t : JSString} (ht : t = [] ∨ t = [56]) :
    processText (q ++ SOH :: t) = processText q := by
  have hsoh : ¬ [SOH] <:+ SOH :: beginMark := by decide
  obtain ⟨ps, p, h1, h2⟩ := splitSeq_concat hsoh q
  rcases ht with rfl | rfl
  · have hlast := parsePart_append_cons p (t := []) (by simp) (by simp)
    simp only [processText, h1, h2, List.filterMap_append, List.filterMap_cons, hlast]
  · have h8 : ¬ [(56 : UInt16)] <:+ SOH :: beginMark := by decide
    obtain ⟨ps', p', h3, h4⟩ := splitSeq_concat h8 (q ++ [SOH])
    have hsame : ps' = ps ∧ p' = p ++ [SOH] := by
      have h := h3.symm.trans h2
      exact ⟨List.append_inj_left' h rfl, by simpa using List.append_inj_right' h rfl⟩
    obtain ⟨rfl, rfl⟩ := hsame
    have hlast := parsePart_append_cons p (t := [56]) (by decide) (by decide)
    rw [List.append_assoc] at h4
    simp only [List.append_assoc, List.singleton_append] at h4
    simp only [processText, h1, h4, List.filterMap_append, List.filterMap_cons, hlast]

/-- Data on both sides of a separator is processed separately. -/
theorem processText_append_separator (q t : JSString) :
    processText (q ++ (SOH :: beginMark ++ t)) = processText q ++ processText t := by
  have hb : SOH ∉ beginMark := by decide
  rw [processText, splitSeq_append_sep_append hb, List.filterMap_append]
  rfl

/-- A begin mark at the front is what the parser would restore. -/
theorem processText_beginMark_append {t : JSString} (ht : ¬ beginMark <+: t) :
    processText (beginMark ++ t) = processText t := by
  have hsplit : splitSeq (SOH :: beginMark) (beginMark ++ t) =
      (splitSeq (SOH :: beginMark) t).modifyHead (beginMark ++ ·) := by
    have h8 : (56 : UInt16) ≠ SOH := by decide
    have heq : EQ ≠ SOH := by decide
    rw [beginMark_eq, List.cons_append, List.singleton_append, splitSeq_cons_of_ne _ h8,
      splitSeq_cons_of_ne _ heq, List.modifyHead_modifyHead]
    rfl
  rw [processText, processText, hsplit]
  cases hp : splitSeq (SOH :: beginMark) t with
  | nil => exact absurd hp (splitSeq_ne_nil _ _)
  | cons p ps =>
    have hnot : ¬ beginMark <+: p := fun h => ht (h.trans (isPrefix_of_splitSeq_eq_cons hp))
    have hpart : parsePart (beginMark ++ p) = parsePart p := by
      rw [parsePart_eq, parsePart_eq, restoreBeginMark, if_pos (List.prefix_append _ _),
        restoreBeginMark, if_neg hnot]
    simp only [List.modifyHead_cons, List.filterMap_cons, hpart]

/-- Data that may follow a message: nothing, or the beginning of a message with a
BeginString value that does not start with `8=`. -/
def MessageStart (t : JSString) : Prop :=
  t = [] ∨ t = [56] ∨ ∃ t', t = beginMark ++ t' ∧ ¬ beginMark <+: t'

/-- A message and what follows it are processed separately. -/
theorem processText_append_messageStart (q : JSString) {t : JSString} (ht : MessageStart t) :
    processText (q ++ [SOH] ++ t) = processText (q ++ [SOH]) ++ processText t := by
  have hend : processText (q ++ [SOH]) = processText q :=
    processText_append_cons q (t := []) (Or.inl rfl)
  rcases ht with rfl | rfl | ⟨t', rfl, hnot⟩
  · rw [List.append_nil]
    simp [processText, parsePart]
  · have h8 : processText (q ++ [SOH, 56]) = processText q :=
      processText_append_cons q (t := [56]) (Or.inr rfl)
    have hnone : processText [56] = [] := by decide
    rw [List.append_assoc, List.singleton_append, h8, hend, hnone, List.append_nil]
  · rw [List.append_assoc, List.singleton_append, ← List.cons_append,
      processText_append_separator, processText_beginMark_append hnot, hend]

/-- The text of one message is read as one part. -/
theorem processText_fieldsText {f : Field} {fs : List Field} (hfs : ∀ g ∈ f :: fs, PlainField g)
    (hf : f.1 = Fields.beginString) (hkey : ∀ g ∈ fs, g.1 ≠ Fields.beginString) :
    processText (fieldsText (f :: fs)) =
      (acceptMessage (readFields .empty (f :: fs))).toList := by
  have hbegin : beginMark <+: fieldsText (f :: fs) := by
    refine ⟨f.2.printed ++ [SOH] ++ fieldsText fs, ?_⟩
    rw [fieldsText_cons, fieldText, hf, beginMark_eq]
    rfl
  have hread := readText_fieldsText_append hfs .empty []
  rw [List.append_nil, readText_nil] at hread
  rw [processText, splitSeq_eq_singleton (not_isInfix_separator hfs hkey), List.filterMap_cons,
    parsePart_eq, restoreBeginMark, if_pos hbegin, hread]
  cases acceptMessage (readFields .empty (f :: fs)) <;> rfl

end NestQuickfix
