import NestQuickfix.Message.Chunking
import NestQuickfix.Protocol.Parser

/-!
# Streams and the buffering parser

However a stream is cut into chunks, this parser returns the same. But it cuts its buffer
behind every field and not behind every message, and a single field is never a message.
-/

namespace NestQuickfix.Protocol

open Lib

/-! ## The buffer -/

/-- Without SOH everything stays in the buffer. -/
theorem processBuffer_of_notMem {buffer : JSString} (h : SOH ∉ buffer) :
    processBuffer buffer = ([], buffer) := by
  rw [processBuffer, if_neg h]

/-- The buffer is cut behind its first SOH. -/
theorem processBuffer_append_cons {s : JSString} (h : SOH ∉ s) (t : JSString) :
    processBuffer (s ++ SOH :: t) =
      ((parse (s ++ [SOH])).toOption.toList ++ (processBuffer t).1, (processBuffer t).2) := by
  have hindex : (s ++ SOH :: t).idxOf SOH = s.length := by
    rw [List.idxOf_append_of_notMem h, List.idxOf_cons_self, Nat.add_zero]
  have hcut : s ++ SOH :: t = (s ++ [SOH]) ++ t := by simp
  have hlength : s.length + 1 = (s ++ [SOH]).length := by simp
  rw [processBuffer, if_pos (by simp)]
  dsimp only
  rw [hindex, hcut, hlength, List.take_left, List.drop_left]

/-- A text may be processed in two parts if what is left of the first one is kept. -/
theorem processBuffer_append (s t : JSString) : processBuffer (s ++ t) =
    ((processBuffer s).1 ++ (processBuffer ((processBuffer s).2 ++ t)).1,
      (processBuffer ((processBuffer s).2 ++ t)).2) := by
  induction hn : s.length using Nat.strongRecOn generalizing s with
  | ind n ih =>
    by_cases h : SOH ∈ s
    · obtain ⟨first, rest, rfl, hfirst⟩ := List.eq_append_cons_of_mem h
      rw [List.append_assoc, List.cons_append, processBuffer_append_cons hfirst,
        processBuffer_append_cons hfirst, ih rest.length (by simp [← hn]; omega) rest rfl,
        List.append_assoc]
    · rw [processBuffer_of_notMem h, List.nil_append]

/-- What is left has no SOH. -/
theorem notMem_processBuffer (s : JSString) : SOH ∉ (processBuffer s).2 := by
  induction hn : s.length using Nat.strongRecOn generalizing s with
  | ind n ih =>
    by_cases h : SOH ∈ s
    · obtain ⟨first, rest, rfl, hfirst⟩ := List.eq_append_cons_of_mem h
      rw [processBuffer_append_cons hfirst]
      exact ih rest.length (by simp [← hn]; omega) rest rfl
    · rw [processBuffer_of_notMem h]
      exact h

/-- Chunks of a text are processed like the whole text. -/
theorem feed_eq_processBuffer {buffer : JSString} (h : SOH ∉ buffer) (chunks : List (List UInt8)) :
    feed buffer chunks = processBuffer (buffer ++ (chunks.map ofUtf8).flatten) := by
  induction chunks generalizing buffer with
  | nil =>
    rw [List.map_nil, List.flatten_nil, List.append_nil, processBuffer_of_notMem h]
    rfl
  | cons data chunks ih =>
    rw [List.map_cons, List.flatten_cons, ← List.append_assoc, processBuffer_append,
      ← ih (notMem_processBuffer _)]
    rfl

/-! ## Fields -/

/-- The declared length stands behind a `9=`. -/
theorem isInfix_of_bodyLengthMatch {s declared : JSString} (h : bodyLengthMatch s = some declared) :
    js "9=" <:+: s := by
  induction s with
  | nil => cases h
  | cons u s ih =>
    rw [bodyLengthMatch] at h
    split at h
    · next hmatch => exact hmatch.1.isInfix
    · obtain ⟨before, after, heq⟩ := ih h
      exact ⟨u :: before, after, by rw [← heq]; rfl⟩

/-- What stands before the first `=` of a field text is its tag. -/
theorem eq_natText_of_isPrefix {n : ℕ} {tag text value : JSString} (htag : EQ ∉ tag)
    (h : tag ++ EQ :: text <+: natText n ++ EQ :: value) : tag = natText n := by
  obtain ⟨rest, hrest⟩ := h
  rw [List.append_assoc, List.cons_append] at hrest
  exact (append_cons_inj_of_notMem_left htag (EQ_notMem_natText n) hrest).1

/-- What stands before any `=` of a field text ends its tag, if the value has no `=`. -/
theorem isSuffix_natText_of_isInfix {n : ℕ} {text value : JSString} (hvalue : EQ ∉ value)
    (h : text ++ [EQ] <:+: natText n ++ EQ :: value) : text <:+ natText n := by
  obtain ⟨before, after, heq⟩ := h
  rw [← List.append_assoc, List.append_assoc (before ++ text), List.singleton_append] at heq
  rcases append_cons_eq_append_cons (EQ_notMem_natText n) heq.symm with
    ⟨hleft, _⟩ | ⟨later, _, hright⟩
  · exact ⟨before, hleft⟩
  · exact absurd (hright ▸ by simp : EQ ∈ value) hvalue

/-- The text of one field does not have the format of a message. -/
theorem isValidMessageFormat_fieldText {f : Field} (hf : CleanField f) :
    isValidMessageFormat (fieldText f) = false := by
  by_contra h
  rw [Bool.not_eq_false, isValidMessageFormat] at h
  split at h
  · cases h
  · next hbegin =>
    rw [not_not] at hbegin
    cases hmatch : bodyLengthMatch (fieldText f) with
    | none => simp [hmatch] at h
    | some declared =>
      -- the only `=` of the text would stand behind an 8 and behind a 9
      obtain ⟨n, s, rfl, _, _, hEQ⟩ := hf
      have hbegin' : js "8" ++ EQ :: js "FIX" <+: natText n ++ EQ :: (s ++ [SOH]) := hbegin
      have h8 : js "8" = natText n := eq_natText_of_isPrefix (by decide) hbegin'
      have hvalue : EQ ∉ s ++ [SOH] := by
        rw [List.mem_append, List.mem_singleton, not_or]
        exact ⟨hEQ, by decide⟩
      have h9 : js "9" <:+ natText n :=
        isSuffix_natText_of_isInfix hvalue (isInfix_of_bodyLengthMatch hmatch)
      rw [← h8] at h9
      exact absurd h9 (by decide)

/-- No field is returned as a message. -/
theorem parse_fieldText {f : Field} (hf : CleanField f) : (parse (fieldText f)).toOption = none := by
  rw [parse, isValidMessageFormat_fieldText hf]
  rfl

/-- A text of fields is used up, and no message is returned. -/
theorem processBuffer_fieldsText {fs : List Field} (hfs : ∀ f ∈ fs, CleanField f) :
    processBuffer (fieldsText fs) = ([], []) := by
  induction fs with
  | nil => exact processBuffer_of_notMem List.not_mem_nil
  | cons f fs ih =>
    have hf : CleanField f := hfs f (by simp)
    have hrest := ih fun g hg => hfs g (by simp [hg])
    rw [fieldsText_cons, fieldText_eq, List.append_assoc, List.singleton_append,
      processBuffer_append_cons hf.plainField.notMem, ← fieldText_eq, parse_fieldText hf, hrest]
    rfl

/-! ## Messages -/

/-- The chunks of a stream return every message once, in order and with its fields, and leave
nothing in the buffer. -/
structure DeliversOnce (ms : List Message) (chunks : List (List UInt8)) : Prop where
  returned : List.Forall₂ Message.RestoredAs ms (feed [] chunks).1
  buffer : (feed [] chunks).2 = []

/-- However a stream of messages of ASCII values without separators is cut, nothing is
returned. -/
theorem feed_eq_nil {ms : List Message} {ws : List JSString}
    (hms : ∀ m ∈ ms, m.FieldsSatisfy Framed)
    (hws : List.Forall₂ (fun m w => m.toString = .ok w) ms ws) {chunks : List (List UInt8)}
    (hchunks : chunks.flatten = toUtf8 ws.flatten) : feed [] chunks = ([], []) := by
  obtain ⟨rfl, hall⟩ := clean_of_framed hms hws
  have hfields : (ms.map Message.wireText).flatten = fieldsText (ms.flatMap Message.wireFields) := by
    simp only [fieldsText, List.flatMap_assoc]
    rfl
  have hascii : IsAscii (ms.map Message.wireText).flatten := by
    intro u hu
    obtain ⟨w, hw, hu⟩ := List.mem_flatten.mp hu
    obtain ⟨m, hm, rfl⟩ := List.mem_map.mp hw
    exact (hall m hm).2 u hu
  rw [feed_eq_processBuffer List.not_mem_nil, (map_ofUtf8_of_isAscii hascii hchunks).1,
    List.nil_append, hfields, processBuffer_fieldsText]
  intro f hf
  obtain ⟨m, hm, hf⟩ := List.mem_flatMap.mp hf
  exact (hall m hm).1.2 f hf

/-- The parser delivers a list of such messages, in whatever chunks, only if it is empty. -/
theorem deliversOnce_iff {ms : List Message} {ws : List JSString}
    (hms : ∀ m ∈ ms, m.FieldsSatisfy Framed)
    (hws : List.Forall₂ (fun m w => m.toString = .ok w) ms ws) {chunks : List (List UInt8)}
    (hchunks : chunks.flatten = toUtf8 ws.flatten) : DeliversOnce ms chunks ↔ ms = [] := by
  have hfeed := feed_eq_nil hms hws hchunks
  constructor
  · intro h
    have hreturned := h.returned
    rw [hfeed] at hreturned
    cases hreturned
    rfl
  · rintro rfl
    exact ⟨hfeed ▸ .nil, by rw [hfeed]⟩

/-- The bytes of a message in two chunks. -/
theorem deliversOnce_iff_news : DeliversOnce [Message.news (js "hi")] (newsInTwo 60) ↔
    [Message.news (js "hi")] = [] := by
  have hms : ∀ m ∈ [Message.news (js "hi")], m.FieldsSatisfy Framed := by
    rw [List.forall_mem_singleton]
    exact Message.fieldsSatisfy_ofStrings (by decide)
  have hws : List.Forall₂ (fun m w => Message.toString m = .ok w) [Message.news (js "hi")]
      [(Message.news (js "hi")).wireText] := .cons (by decide +kernel) .nil
  exact deliversOnce_iff hms hws (by simp [newsInTwo])

/-- The bytes of a message in one chunk: the message is lost. -/
theorem not_deliversOnce_news :
    (Message.news (js "hi")).toString = .ok (Message.news (js "hi")).wireText ∧
      (Message.news (js "hi")).FieldsSatisfy Framed ∧
      js "8=FIX" <+: (Message.news (js "hi")).wireText ∧
      ¬ DeliversOnce [Message.news (js "hi")] [toUtf8 (Message.news (js "hi")).wireText] := by
  have hfields : (Message.news (js "hi")).FieldsSatisfy Framed :=
    Message.fieldsSatisfy_ofStrings (by decide)
  have htext : (Message.news (js "hi")).toString = .ok (Message.news (js "hi")).wireText := by
    decide +kernel
  refine ⟨htext, hfields, by decide +kernel, fun h => ?_⟩
  have hfeed : feed [] [toUtf8 (Message.news (js "hi")).wireText] = ([], []) :=
    feed_eq_nil (List.forall_mem_singleton.mpr hfields) (.cons htext .nil) (by simp)
  have hreturned := h.returned
  rw [hfeed] at hreturned
  cases hreturned

end NestQuickfix.Protocol
