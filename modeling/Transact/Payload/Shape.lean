import Transact.FixedList
import Transact.Payload.Error

/-!
# Shapes of payloads

A shape says what a value looks like without saying how it is written. The values of a shape form
a type, so a writer is a function on the values of its shape and cannot be handed any other. The
binary form and the JSON form are two readings of one shape.
-/

namespace Transact.Payload

mutual

/-- What a value looks like. -/
inductive Shape where
  /-- One byte. -/
  | byte
  /-- An integer of a whole number of bytes. -/
  | integer (signed : Bool) (width : Nat)
  /-- A truth value. -/
  | boolean
  /-- A text. -/
  | text
  /-- A byte string taken as one value. -/
  | blob
  /-- Nothing at all. -/
  | unit
  /-- A number up to 65535 in the form of a compact length. -/
  | compactLength
  /-- A value that may be missing. -/
  | optional (inner : Shape)
  /-- Any number of values. -/
  | sequence (inner : Shape)
  /-- Any number of values, which a writer would not have counted beforehand. -/
  | unsizedSequence (inner : Shape)
  /-- Any number of values behind a compact length. -/
  | compactSequence (inner : Shape)
  /-- A fixed number of values. -/
  | array (count : Nat) (inner : Shape)
  /-- Components of different shapes, known by their place. -/
  | tuple (components : Fields)
  /-- Components of different shapes, known by their names. -/
  | record (fields : Fields)
  /-- The question whether the form at hand is meant for people; its answer is the value. -/
  | readable
  /-- A value that always refuses, with a text of its own. -/
  | refusal
  /-- A shape outside the closed set. -/
  | unsupported (shape : Unsupported)

/-- The components of a tuple or a record, in order. The names matter to records only. -/
inductive Fields where
  /-- No further component. -/
  | nil
  /-- A component and those after it. -/
  | cons (name : String) (shape : Shape) (rest : Fields)

end

mutual

/-- The values of a shape. -/
@[reducible] def Shape.Value : Shape → Type
  | .byte => UInt8
  | .integer _ width => BitVec (8 * width)
  | .boolean => Bool
  | .text => String
  | .blob => Bytes
  | .unit => Unit
  | .compactLength => UInt16
  | .optional inner => Option inner.Value
  | .sequence inner => List inner.Value
  | .unsizedSequence inner => List inner.Value
  | .compactSequence inner => List inner.Value
  | .array count inner => FixedList count inner.Value
  | .tuple components => components.Value
  | .record fields => fields.Value
  | .readable => Bool
  | .refusal => String
  | .unsupported _ => Unit

/-- The values of a run of components: one value each. -/
@[reducible] def Fields.Value : Fields → Type
  | .nil => Unit
  | .cons _ shape rest => shape.Value × rest.Value

end

end Transact.Payload
