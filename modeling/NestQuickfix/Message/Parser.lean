import NestQuickfix.Lib.Splitting
import NestQuickfix.Message.Encoding

/-!
# The parser of the acceptor

`FIXMessageParser.processData` splits a chunk of data at every SOH followed by
`8=`, restores the prefix `8=` where it is missing, and reads each part as a
list of fields. It keeps nothing from one chunk to the next. A part without
BeginString or MsgType is logged and dropped.
-/

namespace NestQuickfix

open Lib

/-- The text `8=` that starts a message. -/
def beginMark : JSString := js "8="

/-- Read one field into a message. A field without `=`, tag or value is ignored,
and so is everything behind a second `=`. -/
def parseField (message : Message) (field : JSString) : Message :=
  match field.splitOn EQ with
  | tag :: value :: _ =>
    if tag ≠ [] ∧ value ≠ [] then
      if tag = js "8" then message.setField Fields.beginString (.str value)
      else message.setField (.num (parseInt tag)) (.str value)
    else message
  | _ => message

/-- Add back the BeginString tag if it was removed by the split. -/
def restoreBeginMark (rawMsg : JSString) : JSString :=
  if beginMark <+: rawMsg then rawMsg else beginMark ++ rawMsg

/-- The message of one part of a chunk, or the logged error. -/
def parseRawMessage (rawMsg : JSString) : Except JSError Message :=
  let message := ((restoreBeginMark rawMsg).splitOn SOH).foldl parseField .empty
  if !message.hasField Fields.beginString then .error (js "Missing BeginString (tag 8)")
  else if !message.hasField Fields.msgType then .error (js "Missing MsgType (tag 35)")
  else .ok message

/-- What one part of a chunk contributes. -/
def parsePart (rawMsg : JSString) : Option Message :=
  if rawMsg = [] then none else (parseRawMessage rawMsg).toOption

/-- `processData` after the conversion of the bytes to a string. -/
def processText (rawData : JSString) : List Message :=
  (splitSeq (SOH :: beginMark) rawData).filterMap parsePart

/-- The messages of one chunk of data. -/
def processData (data : List UInt8) : List Message := processText (ofUtf8 data)

/-! ## Fields -/

/-- The value the parser takes from a field text: up to the next `=`. -/
def readable (value : JSString) : JSString := value.takeWhile (· ≠ EQ)

/-- The first piece of a split at `=` is the readable part. -/
theorem splitOn_eq_readable_cons (s : JSString) : ∃ rest, s.splitOn EQ = readable s :: rest := by
  induction s with
  | nil => exact ⟨[], rfl⟩
  | cons u s ih =>
    obtain ⟨rest, hrest⟩ := ih
    rw [List.splitOn_cons_eq_if_modifyHead]
    by_cases hu : u = EQ
    · exact ⟨s.splitOn EQ, by simp [hu, readable]⟩
    · exact ⟨rest, by simp [hu, readable, hrest]⟩

/-- A value without `=` is read whole. -/
theorem readable_eq_self {value : JSString} (h : EQ ∉ value) : readable value = value := by
  apply List.takeWhile_eq_self_iff.mpr
  intro u hu
  have hne : u ≠ EQ := fun heq => h (heq ▸ hu)
  simpa using hne

theorem notMem_readable (value : JSString) : EQ ∉ readable value := by
  intro hmem
  have h := List.mem_takeWhile_imp hmem
  simp at h

/-- Printed numbers contain neither separator. -/
theorem notMem_natText (n : ℕ) {u : UInt16} (hu : u.toNat < 48 ∨ 57 < u.toNat) :
    u ∉ natText n := by
  intro hmem
  have hdigit := natText_digits n u hmem
  omega

theorem EQ_notMem_natText (n : ℕ) : EQ ∉ natText n := notMem_natText n (by decide)

theorem SOH_notMem_natText (n : ℕ) : SOH ∉ natText n := notMem_natText n (by decide)

/-- A field text without `=` is ignored. -/
theorem parseField_of_notMem (m : Message) {field : JSString} (h : EQ ∉ field) :
    parseField m field = m := by
  rw [parseField, List.splitOn_eq_singleton h]

/-- Reading `tag=value`, for a tag without `=`. -/
theorem parseField_eq (m : Message) {tag : JSString} (htag : EQ ∉ tag) (value : JSString) :
    parseField m (tag ++ EQ :: value) =
      if tag ≠ [] ∧ readable value ≠ [] then
        if tag = js "8" then m.setField Fields.beginString (.str (readable value))
        else m.setField (.num (parseInt tag)) (.str (readable value))
      else m := by
  obtain ⟨rest, hrest⟩ := splitOn_eq_readable_cons value
  rw [parseField, List.splitOn_append_cons_self_of_not_mem htag, hrest]

theorem natText_eight : natText 8 = js "8" := by decide

/-- Reading `tag=value` for a printed tag. -/
theorem parseField_natText (m : Message) (n : ℕ) (value : JSString) :
    parseField m (natText n ++ EQ :: value) =
      if readable value = [] then m else m.setField (.tag n) (.str (readable value)) := by
  rw [parseField_eq m (EQ_notMem_natText n)]
  by_cases hv : readable value = []
  · simp [hv]
  · rw [if_pos ⟨natText_ne_nil n, hv⟩, if_neg hv, parseInt_natText]
    by_cases h8 : natText n = js "8"
    · rw [if_pos h8]
      rw [← natText_eight] at h8
      rw [natText_injective h8]
      rfl
    · rw [if_neg h8]
      rfl

end NestQuickfix
