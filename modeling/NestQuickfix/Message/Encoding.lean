import NestQuickfix.Lib.Exec
import NestQuickfix.Message.Message

/-!
# The encoder

`Message.toString` writes BeginString, then BodyLength and the body it
measures, then CheckSum over everything before it. The body starts with MsgType
and the four addressing fields, followed by the remaining fields in insertion
order; stored values of BodyLength and CheckSum are ignored. Lengths and sums are taken
over UTF-16 code units.
-/

namespace NestQuickfix

open Lib

/-- `${tag}=${value}${SOH}`. -/
def fieldString (tag : JSString) (value : Value) : Except JSError JSString := do
  let text ← value.text
  return tag ++ EQ :: (text ++ [SOH])

/-- Append the texts of several fields, as the `forEach` loops of the encoder do. -/
def fieldStrings : List Field → Except JSError JSString
  | [] => .ok []
  | (tag, value) :: fields => do
    let first ← fieldString tag.text value
    let rest ← fieldStrings fields
    return first ++ rest

namespace Message

/-- The fields `toString` requires. -/
def requiredFields : List FieldType :=
  [Fields.beginString, Fields.msgType, Fields.senderCompID, Fields.targetCompID,
    Fields.msgSeqNum, Fields.sendingTime]

/-- Throw when a required field is missing. -/
def validateRequiredFields (m : Message) : Except JSError Unit := m.requireFields requiredFields

/-- The fields that follow MsgType in a fixed order. -/
def orderedFields : List FieldType :=
  [Fields.senderCompID, Fields.targetCompID, Fields.msgSeqNum, Fields.sendingTime]

/-- The fields the last pass of the encoder writes. -/
def isRemainingField (tag : FieldType) : Bool :=
  decide (tag ≠ Fields.beginString ∧ tag ≠ Fields.bodyLength ∧ tag ≠ Fields.checkSum ∧
    tag ≠ Fields.msgType ∧ tag ∉ orderedFields)

/-- The part of the text that BodyLength measures. -/
def bodyString (m : Message) : Except JSError JSString := do
  let msgType ← fieldString (js "35") (m.getField Fields.msgType)
  let ordered ← fieldStrings ((orderedFields.filter m.hasField).map fun f => (f, m.getField f))
  let remaining ← fieldStrings (m.fields.entries.filter fun e => isRemainingField e.1)
  return msgType ++ (ordered ++ remaining)

/-- The sum of the code units modulo 256, as three digits. -/
def calculateChecksum (message : JSString) : JSString :=
  padStart 3 (natText ((message.map UInt16.toNat).sum % 256))

/-- The text before the CheckSum field. -/
def checkedString (beginString body : JSString) : JSString :=
  beginString ++ (js "9=" ++ natText body.length ++ [SOH] ++ body)

/-- The FIX string of a message. -/
def toString (m : Message) : Except JSError JSString := do
  m.validateRequiredFields
  let beginString ← fieldString (js "8") (m.getField Fields.beginString)
  let body ← m.bodyString
  let fixString := checkedString beginString body
  return fixString ++ (js "10=" ++ calculateChecksum fixString ++ [SOH])

end Message

end NestQuickfix
