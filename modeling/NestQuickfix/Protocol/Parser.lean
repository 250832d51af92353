import NestQuickfix.Message.Parser
import NestQuickfix.Message.WireFormat

/-!
# The parser of the protocol package

This `FIXMessageParser` keeps what it has not used yet in a buffer. It cuts the buffer behind
every SOH and parses each cut-off part as a message: the part must begin with `8=FIX` and
declare its own length, and its last field must be the sum of the others. A part that fails is
logged and dropped.
-/

namespace NestQuickfix.Protocol

open Lib

/-! ## Checksum -/

/-- `ChecksumValidator.calculateChecksum`: the sum of all fields but CheckSum. -/
def calculateChecksum (message : Message) : JSString :=
  Message.calculateChecksum
    (fieldsText (message.fields.entries.filter fun f => f.1 ≠ Fields.checkSum))

/-- `ChecksumValidator.validate`. -/
def validate (message : Message) : Bool :=
  message.getField Fields.checkSum = .str (calculateChecksum message)

/-! ## Format -/

/-- `indexOf` of a text, `-1` if it does not occur. -/
def indexOf (searched : JSString) : JSString → ℤ
  | [] => if searched = [] then 0 else -1
  | u :: s =>
    if searched <+: u :: s then 0
    else if indexOf searched s = -1 then -1 else indexOf searched s + 1

/-- `lastIndexOf` of a code unit, `-1` if it does not occur. -/
def lastIndexOf (searched : UInt16) (s : JSString) : ℤ :=
  if searched ∈ s then s.length - 1 - s.reverse.idxOf searched else -1

/-- `\d`. -/
def isDigit (u : UInt16) : Bool := decide (48 ≤ u.toNat ∧ u.toNat ≤ 57)

/-- The group of the first match of `/9=(\d+)\x01/`. -/
def bodyLengthMatch : JSString → Option JSString
  | [] => none
  | u :: s =>
    if js "9=" <+: u :: s ∧ (s.drop 1).takeWhile isDigit ≠ [] ∧
        ((s.drop 1).dropWhile isDigit).head? = some SOH then some ((s.drop 1).takeWhile isDigit)
    else bodyLengthMatch s

/-- `calculateBodyLength`. -/
def calculateBodyLength (message : JSString) : ℤ :=
  lastIndexOf SOH message - (indexOf (js "9=") message + 2)

/-- `isValidMessageFormat`. -/
def isValidMessageFormat (message : JSString) : Bool :=
  if ¬ js "8=FIX" <+: message then false
  else match bodyLengthMatch message with
    | none => false
    | some declared => parseInt declared = .int (calculateBodyLength message)

/-! ## Parsing -/

/-- One pair of `parseFields`. The value of a pair without `=` is `undefined`. -/
def parsePair (fields : OrderedMap FieldType Value) (pair : JSString) :
    OrderedMap FieldType Value :=
  if pair = [] then fields
  else match pair.splitOn EQ with
    | tag :: value :: _ => fields.set (.num (parseInt tag)) (.str value)
    | [tag] => fields.set (.num (parseInt tag)) .undefined
    | [] => fields

/-- `parseFields`. -/
def parseFields (message : JSString) : OrderedMap FieldType Value :=
  (message.splitOn SOH).foldl parsePair .empty

/-- `parse`. -/
def parse (rawMessage : JSString) : Except JSError Message :=
  if !isValidMessageFormat rawMessage then
    .error (js "Failed to parse message: Invalid message format")
  else
    let message := Message.empty.setFields (parseFields rawMessage).entries
    if !validate message then .error (js "Failed to parse message: Invalid checksum")
    else .ok message

/-- The loop of `processData`: cut the buffer behind its first SOH, parse what is cut off, and
go on with the rest. -/
def processBuffer (buffer : JSString) : List Message × JSString :=
  if SOH ∈ buffer then
    let endIndex := buffer.idxOf SOH
    let rest := processBuffer (buffer.drop (endIndex + 1))
    ((parse (buffer.take (endIndex + 1))).toOption.toList ++ rest.1, rest.2)
  else ([], buffer)
termination_by buffer.length
decreasing_by
  have hpos : 0 < buffer.length := List.length_pos_of_mem ‹_›
  rw [List.length_drop]
  omega

/-- `processData`: the messages of a chunk of data, and the buffer after it. -/
def processData (buffer : JSString) (data : List UInt8) : List Message × JSString :=
  processBuffer (buffer ++ ofUtf8 data)

/-- Calls of `processData` one after the other. -/
def feed (buffer : JSString) : List (List UInt8) → List Message × JSString
  | [] => ([], buffer)
  | data :: chunks =>
    let first := processData buffer data
    let rest := feed first.2 chunks
    (first.1 ++ rest.1, rest.2)

end NestQuickfix.Protocol
