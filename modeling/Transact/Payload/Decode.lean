import Transact.CompactLength
import Transact.Payload.Shape
import Transact.Reader

/-!
# Reading payloads

A reader of a shape takes its value off the front of an input. Values are read left to right and
the first fault ends the reading; a shape outside the closed set is a fault only where it is
reached.
-/

namespace Transact.Payload

/-- Take a number of known width. -/
def readNumber (width : Nat) : Reader Error Nat := fun input => do
  let (bytes, rest) ← Reader.bytes .insufficientData width input
  return (Bytes.toNat bytes, rest)

/-- Take a byte string behind its count. -/
def readBlob : Reader Error Bytes := fun input => do
  let (count, rest) ← readNumber 8 input
  Reader.bytes .insufficientData count rest

/-- Take a compact length, byte by byte. -/
def readCompactLength : Reader Error UInt16 :=
  CompactLength.gather (Reader.byte .insufficientData) (fun fault => .custom fault.report)
    CompactLength.maximumSize 0 0

mutual

/-- Read a value of a shape. -/
def Shape.decode : (shape : Shape) → Reader Error shape.Value
  | .byte => Reader.byte .insufficientData
  | .integer _ width => fun input => do
    let (number, rest) ← readNumber width input
    return (BitVec.ofNat (8 * width) number, rest)
  | .boolean => fun input => do
    let (byte, rest) ← Reader.byte .insufficientData input
    if byte = 0 then return (false, rest)
    else if byte = 1 then return (true, rest)
    else throw (.invalidBool byte)
  | .text => fun input => do
    let (bytes, rest) ← readBlob input
    match String.fromUTF8? ⟨bytes.toArray⟩ with
    | some text => return (text, rest)
    | none => throw .invalidUtf8
  | .blob => readBlob
  | .unit => fun input => .ok ((), input)
  | .compactLength => readCompactLength
  | .optional inner => fun input => do
    let (tag, rest) ← Reader.byte .insufficientData input
    if tag = 0 then return (none, rest)
    else if tag = 1 then
      let (value, rest) ← inner.decode rest
      return (some value, rest)
    else throw (.invalidOptionTag tag)
  | .sequence inner => fun input => do
    let (count, rest) ← readNumber 8 input
    let (items, rest) ← Reader.many inner.decode count rest
    return (items.toList, rest)
  | .unsizedSequence inner => fun input => do
    let (count, rest) ← readNumber 8 input
    let (items, rest) ← Reader.many inner.decode count rest
    return (items.toList, rest)
  | .compactSequence inner => fun input => do
    let (count, rest) ← readCompactLength input
    let (items, rest) ← Reader.many inner.decode count.toNat rest
    return (items.toList, rest)
  | .array count inner => Reader.many inner.decode count
  | .tuple components => components.decode
  | .record fields => fields.decode
  | .readable => fun input => .ok (false, input)
  | .refusal => fun _ => .error (.custom "refused")
  | .unsupported shape => fun _ => .error (.unsupported shape)

/-- Read the components one after another. -/
def Fields.decode : (fields : Fields) → Reader Error fields.Value
  | .nil => fun input => .ok ((), input)
  | .cons _ shape rest => fun input => do
    let (value, input) ← shape.decode input
    let (values, input) ← rest.decode input
    return ((value, values), input)

end

end Transact.Payload
