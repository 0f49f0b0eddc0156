/-!
# Faults of the payload format

The payload format carries a closed set of shapes. A shape outside the set is a fault wherever a
value of it is actually reached, on writing and on reading alike; the other faults say what is
wrong with the bytes. A count takes eight bytes and every such count can be addressed, so there is
no fault for one that is too large for the machine.
-/

namespace Transact.Payload

/-- What the format does not carry. -/
inductive Unsupported where
  /-- A signed integer of 128 bits. -/
  | signed128
  /-- An unsigned integer of 128 bits. -/
  | unsigned128
  /-- A floating-point number of 32 bits. -/
  | float32
  /-- A floating-point number of 64 bits. -/
  | float64
  /-- A single character. -/
  | character
  /-- A table from keys to values. -/
  | map
  /-- A value with alternatives. -/
  | enumeration
  /-- A sequence whose length is not known before its items are. -/
  | unsizedSequence
  /-- A value whose shape the reader would have to learn from the bytes. -/
  | selfDescribing
  /-- The name of a field. -/
  | identifier
  /-- A value to be skipped without knowing its shape. -/
  | ignored
  /-- A text, a byte string or a sequence too long for an eight-byte count. -/
  | wideCount
deriving DecidableEq

/-- How reports name each of them. -/
def Unsupported.name : Unsupported → String
  | .signed128 => "i128"
  | .unsigned128 => "u128"
  | .float32 => "f32"
  | .float64 => "f64"
  | .character => "char"
  | .map => "map"
  | .enumeration => "enum"
  | .unsizedSequence => "sequence of unknown length"
  | .selfDescribing => "self-describing value"
  | .identifier => "identifier"
  | .ignored => "ignored value"
  | .wideCount => "length wider than 64 bits"

/-- Why a value cannot be written or read. -/
inductive Error where
  /-- A shape outside the closed set was reached. -/
  | unsupported (shape : Unsupported)
  /-- Fewer bytes remain than the value takes. -/
  | insufficientData
  /-- A truth value is neither 0 nor 1. -/
  | invalidBool (byte : UInt8)
  /-- The mark of an optional value is neither 0 nor 1. -/
  | invalidOptionTag (byte : UInt8)
  /-- The bytes of a text are not UTF-8. -/
  | invalidUtf8
  /-- So many bytes are left over after the value. -/
  | trailingBytes (count : Nat)
  /-- A rule of the value's own was broken; the text says which. -/
  | custom (text : String)
deriving DecidableEq

/-- The report of each fault. -/
def Error.report : Error → String
  | .unsupported shape => s!"unsupported type: {shape.name}"
  | .insufficientData => "insufficient data"
  | .invalidBool byte => s!"invalid bool encoding: {byte}"
  | .invalidOptionTag byte => s!"invalid option tag: {byte}"
  | .invalidUtf8 => "string is not valid utf-8"
  | .trailingBytes count => s!"{count} unexpected trailing bytes"
  | .custom text => text

end Transact.Payload
