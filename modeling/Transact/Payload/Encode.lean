import Transact.CompactLength
import Transact.Payload.Shape

/-!
# Writing payloads

Numbers are written least significant byte first at their full width. Texts, byte strings and
sequences stand behind an eight-byte count, and what is too long for one is not written; arrays,
tuples and records have no count, since their shape fixes it. Values are written left to right and
the first fault ends the writing.
-/

namespace Transact.Payload

/-- The number of counts that eight bytes can hold. -/
def countLimit : Nat := Nat.pow 256 8

/-- A count in front of a text, a byte string or a sequence. A count that does not fit is refused,
so what was written can always be read back. -/
def countBytes (count : Nat) : Except Error Bytes :=
  if count < countLimit then .ok (Bytes.ofNat 8 count) else .error (.unsupported .wideCount)

/-- A byte string behind its count. -/
def blobBytes (bytes : Bytes) : Except Error Bytes := do
  let count ← countBytes bytes.length
  return count ++ bytes

/-- The compact count in front of a sequence, whose limit is a rule of the sequence. -/
def compactCountBytes (count : Nat) : Except Error Bytes :=
  (CompactLength.encode count).mapError fun fault => .custom fault.report

mutual

/-- Write a value of a shape. -/
def Shape.encode : (shape : Shape) → shape.Value → Except Error Bytes
  | .byte, (byte : UInt8) => .ok [byte]
  | .integer _ width, (number : BitVec (8 * width)) => .ok (Bytes.ofNat width number.toNat)
  | .boolean, (flag : Bool) => .ok [flag.toUInt8]
  | .text, (text : String) => blobBytes text.toUTF8.data.toList
  | .blob, (bytes : Bytes) => blobBytes bytes
  | .unit, _ => .ok []
  | .compactLength, (number : UInt16) => compactCountBytes number.toNat
  | .optional inner, (item : Option inner.Value) =>
    match item with
    | none => .ok [0]
    | some value => do
      let bytes ← inner.encode value
      return 1 :: bytes
  | .sequence inner, (items : List inner.Value) => do
    let count ← countBytes items.length
    let bytes ← items.mapM inner.encode
    return count ++ bytes.flatten
  | .unsizedSequence _, _ => .error (.unsupported .unsizedSequence)
  | .compactSequence inner, (items : List inner.Value) => do
    let count ← compactCountBytes items.length
    let bytes ← items.mapM inner.encode
    return count ++ bytes.flatten
  | .array _ inner, (items : FixedList _ inner.Value) => do
    let bytes ← items.toList.mapM inner.encode
    return bytes.flatten
  | .tuple components, value => components.encode value
  | .record fields, value => fields.encode value
  | .readable, _ => .ok [false.toUInt8]
  | .refusal, (text : String) => .error (.custom text)
  | .unsupported shape, _ => .error (.unsupported shape)

/-- Write the components one after another. -/
def Fields.encode : (fields : Fields) → fields.Value → Except Error Bytes
  | .nil, _ => .ok []
  | .cons _ shape rest, (value, values) => do
    let first ← shape.encode value
    let others ← rest.encode values
    return first ++ others

end

end Transact.Payload
