import Transact.Payload.Decode
import Transact.Payload.Encode
import Transact.Payload.JsonForm

/-!
# Types that have a payload layout

A type has a layout when its values are, field by field, the values of a shape. Its binary and
JSON forms then follow from the shape, and the two directions of the correspondence lose nothing.
-/

namespace Transact.Payload

/-- A shape whose values are the values of `α` in another arrangement. -/
class Layout (α : Type) where
  /-- What a value looks like. -/
  shape : Shape
  /-- Arrange a value as the shape wants it. -/
  toValue : α → shape.Value
  /-- Undo the arrangement. -/
  ofValue : shape.Value → α
  /-- Arranging loses nothing. -/
  ofValue_toValue : ∀ value, ofValue (toValue value) = value
  /-- Every value of the shape is an arranged one. -/
  toValue_ofValue : ∀ value, toValue (ofValue value) = value

variable {α : Type} [Layout α]

/-- The binary form of a value. -/
def toBytes (value : α) : Except Error Bytes :=
  (Layout.shape α).encode (Layout.toValue value)

/-- The number of bytes of the binary form. -/
def encodedSize (value : α) : Except Error Nat := (toBytes value).map List.length

/-- Read a value off the front of an input. -/
def read : Reader Error α := fun input =>
  ((Layout.shape α).decode input).map fun (value, rest) => (Layout.ofValue value, rest)

/-- Read a value that must span the input. -/
def ofBytes : Bytes → Except Error α := Reader.whole read .trailingBytes

/-- Read a value off the front of an input and count its bytes. -/
def ofBytesPartial : Bytes → Except Error (α × Nat) := Reader.counted read

/-- The JSON form of a value, if it has one. -/
def toJson (value : α) : Option Json := (Layout.shape α).toJson (Layout.toValue value)

/-- The value that a JSON document is the form of. -/
def ofJson (json : Json) : Option α := ((Layout.shape α).ofJson json).map Layout.ofValue

end Transact.Payload
