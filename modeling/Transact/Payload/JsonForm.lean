import Transact.CompactLength
import Transact.Json
import Transact.Payload.Shape

/-!
# The JSON form of payloads

The same shapes as the binary form, written as JSON: integers as numbers, runs of values as lists,
records as objects under their field names. A compact length is the list of its bytes, and a
sequence behind one is a list that starts with that list.

Reading is exact. Numbers must be integers within range, lists must have as many items as the
shape wants, and a record is an object with every field (others are ignored) or the plain list of
its fields. JSON is meant for people, which is the answer to the `readable` question.

A layout serves both forms from one shape, so this one stands beside the binary form although the
statements about payloads are about the latter alone.
-/

namespace Transact.Payload

/-- The least and the greatest value of an integer of `width` bytes. -/
def integerRange (signed : Bool) (width : Nat) : Int × Int :=
  if signed then (-Nat.pow 2 (8 * width - 1), Nat.pow 2 (8 * width - 1) - 1)
  else (0, Nat.pow 2 (8 * width) - 1)

/-- The number that a bit pattern stands for. -/
def integerValue (signed : Bool) {bits : Nat} (pattern : BitVec bits) : Int :=
  if signed then pattern.toInt else pattern.toNat

/-- A number within a range. -/
def integerWithin? (range : Int × Int) (json : Json) : Option Int := do
  let number ← json.integer?
  if range.1 ≤ number ∧ number ≤ range.2 then some number else none

/-- A number from 0 to 255. -/
def byte? (json : Json) : Option UInt8 :=
  (integerWithin? (integerRange false 1) json).map fun number => UInt8.ofNat number.toNat

/-- A byte as a number. -/
def byteJson (byte : UInt8) : Json := .integer byte.toNat

/-- The list of the bytes of a compact length. -/
def compactLengthJson (length : Nat) : Option Json :=
  match CompactLength.encode length with
  | .ok bytes => some (.array (bytes.map byteJson))
  | .error _ => none

/-- The first item of a list as a byte, for reading a compact length from the list. -/
def nextByte : List Json → Except Unit (UInt8 × List Json)
  | [] => .error ()
  | item :: rest =>
    match byte? item with
    | some byte => .ok (byte, rest)
    | none => .error ()

/-- Read a list as the bytes of a compact length, none left over. -/
def compactLength? (json : Json) : Option UInt16 := do
  let items ← json.items?
  match CompactLength.gather nextByte (fun _ => ()) CompactLength.maximumSize 0 0 items with
  | .ok (length, []) => some length
  | _ => none

mutual

/-- The JSON form of a value, if it has one. -/
def Shape.toJson : (shape : Shape) → shape.Value → Option Json
  | .byte, (byte : UInt8) => some (byteJson byte)
  | .integer signed _, (number : BitVec _) =>
    some (.integer (integerValue signed number))
  | .boolean, (flag : Bool) => some (.bool flag)
  | .text, (text : String) => some (.text text)
  | .blob, (bytes : Bytes) => some (.array (bytes.map byteJson))
  | .unit, _ => some .null
  | .compactLength, (number : UInt16) => compactLengthJson number.toNat
  | .optional inner, (item : Option inner.Value) =>
    match item with
    | none => some .null
    | some value => inner.toJson value
  | .sequence inner, (items : List inner.Value) => do
    let forms ← items.mapM inner.toJson
    return .array forms
  | .unsizedSequence inner, (items : List inner.Value) => do
    let forms ← items.mapM inner.toJson
    return .array forms
  | .compactSequence inner, (items : List inner.Value) => do
    let count ← compactLengthJson items.length
    let forms ← items.mapM inner.toJson
    return .array (count :: forms)
  | .array _ inner, (items : FixedList _ inner.Value) => do
    let forms ← items.toList.mapM inner.toJson
    return .array forms
  | .tuple components, value => do
    let members ← components.toJson value
    return .array (members.map Prod.snd)
  | .record fields, value => do
    let members ← fields.toJson value
    return .object members
  | .readable, _ => some (.bool true)
  | .refusal, _ => none
  | .unsupported _, _ => none

/-- The JSON forms of the components under their names. -/
def Fields.toJson : (fields : Fields) → fields.Value → Option (List (String × Json))
  | .nil, _ => some []
  | .cons name shape rest, (value, values) => do
    let first ← shape.toJson value
    let others ← rest.toJson values
    return (name, first) :: others

end

mutual

/-- The value that a JSON document is the form of, if it is the form of one. -/
def Shape.ofJson : (shape : Shape) → Json → Option shape.Value
  | .byte => byte?
  | .integer signed width => fun json =>
    (integerWithin? (integerRange signed width) json).map (BitVec.ofInt (8 * width))
  | .boolean => fun json =>
    match json with
    | .bool flag => some flag
    | _ => none
  | .text => fun json =>
    match json with
    | .text text => some text
    | _ => none
  | .blob => fun json => do
    let items ← json.items?
    items.mapM byte?
  | .unit => fun json =>
    match json with
    | .null => some ()
    | _ => none
  | .compactLength => compactLength?
  | .optional inner => fun json =>
    match json with
    | .null => some none
    | other => (inner.ofJson other).map some
  | .sequence inner => fun json => do
    let items ← json.items?
    items.mapM inner.ofJson
  | .unsizedSequence inner => fun json => do
    let items ← json.items?
    items.mapM inner.ofJson
  | .compactSequence inner => fun json =>
    match json with
    | .array (count :: items) => do
      let length ← compactLength? count
      if items.length = length.toNat then items.mapM inner.ofJson else none
    | _ => none
  | .array count inner => fun json => do
    let items ← json.items?
    let values ← items.mapM inner.ofJson
    (FixedList.ofList count values).toOption
  | .tuple components => fun json => do
    let items ← json.items?
    components.ofItems items
  | .record fields => fun json =>
    match json with
    | .array items => fields.ofItems items
    | .object members => fields.ofMembers members
    | _ => none
  | .readable => fun _ => some true
  | .refusal => fun _ => none
  | .unsupported _ => fun _ => none

/-- Components from a list of exactly as many items. -/
def Fields.ofItems : (fields : Fields) → List Json → Option fields.Value
  | .nil => fun items => if items.isEmpty then some () else none
  | .cons _ shape rest => fun items =>
    match items with
    | [] => none
    | item :: others => do
      let value ← shape.ofJson item
      let values ← rest.ofItems others
      return (value, values)

/-- Components from an object, each under its name. -/
def Fields.ofMembers : (fields : Fields) → List (String × Json) → Option fields.Value
  | .nil => fun _ => some ()
  | .cons name shape rest => fun members => do
    let member ← members.lookup name
    let value ← shape.ofJson member
    let values ← rest.ofMembers members
    return (value, values)

end

end Transact.Payload
