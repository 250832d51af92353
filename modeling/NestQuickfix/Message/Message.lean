import NestQuickfix.Lib.OrderedMap
import NestQuickfix.Message.Text

/-!
# Messages

A message is an insertion-ordered map from tags to values. Tags are mostly
numbers, but the parser can store a field under NaN and a caller may use a
string. Values are whatever was stored; the encoder only uses what they print.
-/

namespace NestQuickfix

open Lib

/-- The message of a thrown error. -/
abbrev JSError := JSString

/-- A key of the field map. -/
inductive FieldType where
  | num (n : Number)
  | str (s : JSString)
  deriving DecidableEq

/-- The text a template literal prints for a key. -/
def FieldType.text : FieldType → JSString
  | .num n => n.text
  | .str s => s

/-- The numeric key of a tag. -/
def FieldType.tag (n : ℕ) : FieldType := .num (.int n)

/-- A stored value. `other` is any value that is no string, number or
`undefined`; only its printed form matters, which is missing when printing throws. -/
inductive Value where
  | undefined
  | num (n : Number)
  | str (s : JSString)
  | other (printed : Option JSString)
  deriving DecidableEq

/-- The text a template literal prints for a value. -/
def Value.text : Value → Except JSError JSString
  | .undefined => .ok (js "undefined")
  | .num n => .ok n.text
  | .str s => .ok s
  | .other (some s) => .ok s
  | .other none => .error (js "Cannot convert a Symbol value to a string")

/-! ## Tags and message types -/

namespace Fields

def account : FieldType := .tag 1
def beginString : FieldType := .tag 8
def bodyLength : FieldType := .tag 9
def checkSum : FieldType := .tag 10
def msgSeqNum : FieldType := .tag 34
def msgType : FieldType := .tag 35
def senderCompID : FieldType := .tag 49
def sendingTime : FieldType := .tag 52
def targetCompID : FieldType := .tag 56
def text : FieldType := .tag 58
def encryptMethod : FieldType := .tag 98
def heartBtInt : FieldType := .tag 108
def testReqID : FieldType := .tag 112
def resetSeqNumFlag : FieldType := .tag 141

end Fields

namespace MsgType

def heartbeat : Value := .str (js "0")
def testRequest : Value := .str (js "1")
def logout : Value := .str (js "5")
def logon : Value := .str (js "A")

end MsgType

/-! ## The field map -/

/-- A single field: its tag and value. -/
abbrev Field := FieldType × Value

/-- The base message of all message types. -/
structure Message where
  fields : OrderedMap FieldType Value
  deriving DecidableEq

instance : Inhabited Message := ⟨⟨.empty⟩⟩

namespace Message

/-- The message without fields. -/
def empty : Message := ⟨.empty⟩

/-- Set the value of a field. -/
def setField (m : Message) (field : FieldType) (value : Value) : Message :=
  ⟨m.fields.set field value⟩

/-- The value of a field, `undefined` when it is absent. -/
def getField (m : Message) (field : FieldType) : Value := (m.fields.get? field).getD .undefined

/-- Whether a field is present. -/
def hasField (m : Message) (field : FieldType) : Bool := m.fields.has field

/-- Set several fields one after the other. -/
def setFields (m : Message) (fields : List Field) : Message :=
  fields.foldl (fun m f => m.setField f.1 f.2) m

/-- The message with the given numeric tags and strings. -/
def ofStrings (pairs : List (ℕ × JSString)) : Message :=
  empty.setFields (pairs.map fun p => (.tag p.1, .str p.2))

/-- The reply direction: all fields, with SenderCompID and TargetCompID swapped. -/
def createReverse (m : Message) : Message :=
  ((empty.setFields m.fields.entries).setField Fields.senderCompID
    (m.getField Fields.targetCompID)).setField Fields.targetCompID (m.getField Fields.senderCompID)

/-- Throw the error that names the first missing field of a list. -/
def requireFields (m : Message) : List FieldType → Except JSError Unit
  | [] => .ok ()
  | field :: required =>
    if m.hasField field then m.requireFields required
    else .error (js "Missing required field: " ++ field.text)

@[ext] theorem ext {m n : Message} (h : m.fields = n.fields) : m = n := by
  cases m
  cases n
  simpa using h

theorem getField_setField (m : Message) (f g : FieldType) (v : Value) :
    (m.setField f v).getField g = if g = f then v else m.getField g := by
  rw [getField, setField, OrderedMap.get?_set]
  split <;> rfl

theorem hasField_setField (m : Message) (f g : FieldType) (v : Value) :
    (m.setField f v).hasField g = (decide (g = f) || m.hasField g) := by
  simp [hasField, setField, OrderedMap.has]

theorem hasField_iff {m : Message} {f : FieldType} :
    m.hasField f = true ↔ ∃ v, m.fields.get? f = some v := by
  rw [hasField, OrderedMap.has_eq_isSome, Option.isSome_iff_exists]

theorem getField_of_mem {m : Message} {f : FieldType} {v : Value} (h : (f, v) ∈ m.fields.entries) :
    m.getField f = v := by
  rw [getField, OrderedMap.get?_eq_some_iff.mpr h]
  rfl

theorem mem_of_hasField {m : Message} {f : FieldType} (h : m.hasField f = true) :
    (f, m.getField f) ∈ m.fields.entries := by
  obtain ⟨v, hv⟩ := hasField_iff.mp h
  rw [getField, hv]
  exact OrderedMap.get?_eq_some_iff.mp hv

theorem mem_of_mem_setFields {m : Message} {fs : List Field} {f : Field}
    (h : f ∈ (m.setFields fs).fields.entries) : f ∈ m.fields.entries ∨ f ∈ fs := by
  induction fs generalizing m with
  | nil => exact Or.inl h
  | cons g fs ih =>
    rcases ih (m := m.setField g.1 g.2) h with h | h
    · rcases OrderedMap.mem_entries_set.mp h with rfl | ⟨_, h⟩
      · exact Or.inr (by simp)
      · exact Or.inl h
    · exact Or.inr (by simp [h])

theorem mem_of_mem_ofStrings {pairs : List (ℕ × JSString)} {f : Field}
    (h : f ∈ (ofStrings pairs).fields.entries) : ∃ p ∈ pairs, f = (.tag p.1, .str p.2) := by
  rcases mem_of_mem_setFields h with h | h
  · cases h
  · obtain ⟨p, hp, rfl⟩ := List.mem_map.mp h
    exact ⟨p, hp, rfl⟩

/-- The check passes exactly when every required field is present. -/
theorem requireFields_eq_ok_iff {m : Message} {required : List FieldType} :
    m.requireFields required = .ok () ↔ ∀ f ∈ required, m.hasField f = true := by
  induction required with
  | nil => simp [requireFields]
  | cons f fs ih =>
    by_cases hf : m.hasField f = true
    · simpa [requireFields, hf] using ih
    · simp [requireFields, hf]

/-- A failing check names a missing required field. -/
theorem exists_of_requireFields_eq_error {m : Message} {required : List FieldType} {e : JSError}
    (h : m.requireFields required = .error e) :
    ∃ f ∈ required, m.hasField f = false ∧ e = js "Missing required field: " ++ f.text := by
  induction required with
  | nil => cases h
  | cons f fs ih =>
    by_cases hf : m.hasField f = true
    · obtain ⟨g, hg, hrest⟩ := ih (by simpa [requireFields, hf] using h)
      exact ⟨g, List.mem_cons_of_mem _ hg, hrest⟩
    · refine ⟨f, by simp, by simpa using hf, ?_⟩
      rw [requireFields, if_neg hf] at h
      exact (Except.error.inj h).symm

/-- Setting fields one after the other fills the field map. -/
theorem fields_setFields_empty (fs : List Field) :
    (empty.setFields fs).fields = OrderedMap.ofList fs := by
  have hfold : ∀ (fs : List Field) (n : Message),
      (n.setFields fs).fields = fs.foldl (fun f e => f.set e.1 e.2) n.fields := by
    intro fs
    induction fs with
    | nil => intro n; rfl
    | cons f fs ih => intro n; exact ih (n.setField f.1 f.2)
  exact hfold fs empty

/-- Copying all fields into an empty message copies the field map. -/
theorem setFields_empty_entries (m : Message) : empty.setFields m.fields.entries = m := by
  ext1
  rw [fields_setFields_empty]
  exact OrderedMap.ext (OrderedMap.entries_ofList m.fields.nodup)

theorem createReverse_eq (m : Message) :
    m.createReverse = (m.setField Fields.senderCompID (m.getField Fields.targetCompID)).setField
      Fields.targetCompID (m.getField Fields.senderCompID) := by
  rw [createReverse, setFields_empty_entries]

end Message

end NestQuickfix
