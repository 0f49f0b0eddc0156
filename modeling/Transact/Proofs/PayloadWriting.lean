import Transact.Message.Layouts
import Transact.Proofs.WrittenMessages
import Transact.Proofs.WrittenParts

/-!
# Writing the payload form beside the wire form

The payload form of a message is written by its shape, the wire form part by part. Two writings
succeed alike when each result of the one is a result of the other (`SucceedAlike`); which fault is
reported where they fail is left open. What is made of writings that succeed alike succeeds alike,
so each part is compared once and whole messages follow their fields.

The main statements compare the messages of both formats (`LegacyMessage.succeedAlike_toBytes`,
`V0Message.succeedAlike_toBytes`). For version 0 the wire form has the mark in front, and every
lookup has to select something, since the payload form would keep one that does not.
-/

namespace Transact

open Payload

namespace Payload

/-- A list behind a compact length is written as the length and the items. -/
theorem Shape.encode_compactSequence (inner : Shape) (items : List inner.Value) :
    (Shape.compactSequence inner).encode items = (do
      let count ← compactCountBytes items.length
      let bytes ← items.mapM inner.encode
      return count ++ bytes.flatten) := rfl

/-- A record is written field by field. -/
theorem Shape.encode_record (fields : Fields) : (Shape.record fields).encode = fields.encode := rfl

/-- A component is written before those behind it. -/
theorem Fields.encode_cons (name : String) (shape : Shape) (fields : Fields) (value : shape.Value)
    (values : fields.Value) :
    (Fields.cons name shape fields).encode (value, values) = (do
      let first ← shape.encode value
      let others ← fields.encode values
      return first ++ others) := rfl

/-- Bytes are written as themselves. -/
theorem mapM_encode_byte (bytes : Bytes) :
    ∃ parts, bytes.mapM Shape.byte.encode = .ok parts ∧ parts.flatten = bytes := by
  have each : Shape.byte.encode = fun byte => pure [byte] := rfl
  refine ⟨bytes.map fun byte => [byte], ?_, ?_⟩
  · rw [each, List.mapM_pure]
    rfl
  · rw [← List.flatMap_def, List.flatMap_singleton']

/-- A block is written as its bytes. -/
theorem Shape.encode_block {n : Nat} (block : FixedList n UInt8) :
    (Shape.array n .byte).encode block = .ok block.toList := by
  obtain ⟨parts, written, joined⟩ := mapM_encode_byte block.toList
  have inTurn : (Shape.array n .byte).encode block = (do
      let bytes ← block.toList.mapM Shape.byte.encode
      return bytes.flatten) := rfl
  rw [inTurn, written]
  exact congrArg Except.ok joined

end Payload

variable {fault other α β : Type}

/-- Two outcomes succeed alike when each result of the one is a result of the other. -/
def SucceedAlike (first : Except fault α) (second : Except other α) : Prop :=
  ∀ result, first = .ok result ↔ second = .ok result

namespace SucceedAlike

/-- Returning a result succeeds. -/
theorem pure (result : α) :
    SucceedAlike (Pure.pure result : Except fault α) (Pure.pure result : Except other α) := by
  intro answer
  change Except.ok result = .ok answer ↔ Except.ok result = .ok answer
  rw [Except.ok.injEq, Except.ok.injEq]

/-- What goes on alike behind outcomes that succeed alike succeeds alike. -/
theorem bind {first : Except fault α} {second : Except other α} {next : α → Except fault β}
    {after : α → Except other β} (begun : SucceedAlike first second)
    (others : ∀ value, SucceedAlike (next value) (after value)) :
    SucceedAlike (first >>= next) (second >>= after) := by
  intro result
  rw [Outcome.bind_eq_ok_iff, Outcome.bind_eq_ok_iff]
  exact exists_congr fun value => and_congr (begun value) (others value result)

/-- What is made alike of outcomes that succeed alike succeeds alike. -/
theorem map {first : Except fault α} {second : Except other α} (change : α → β)
    (alike : SucceedAlike first second) :
    SucceedAlike (first.map change) (second.map change) := by
  intro result
  rw [Outcome.map_eq_ok_iff, Outcome.map_eq_ok_iff]
  exact exists_congr fun value => and_congr_left fun _ => alike value

/-- Steps that succeed alike on each item succeed alike on all of them. -/
theorem mapM {first : α → Except fault β} {second : α → Except other β}
    (each : ∀ item, SucceedAlike (first item) (second item)) (items : List α) :
    SucceedAlike (items.mapM first) (items.mapM second) := by
  intro results
  have same : (fun item result => first item = .ok result) =
      fun item result => second item = .ok result :=
    funext₂ fun item result => propext (each item result)
  rw [Outcome.mapM_eq_ok_iff, Outcome.mapM_eq_ok_iff, same]

variable {wire rest : Except MessageError Bytes}

/-- A component and those behind it are written alike when each of them is. -/
theorem cons {name : String} {shape : Shape} {fields : Fields} {value : shape.Value}
    {values : fields.Value} (first : SucceedAlike (shape.encode value) wire)
    (others : SucceedAlike (fields.encode values) rest) :
    SucceedAlike ((Fields.cons name shape fields).encode (value, values))
      (Wire.writeBoth wire rest) := by
  rw [Fields.encode_cons]
  refine first.bind fun front => others.bind fun behind => ?_
  exact .pure _

/-- The last component is written alike with nothing behind it. -/
theorem last {name : String} {shape : Shape} {value : shape.Value}
    (only : SucceedAlike (shape.encode value) wire) :
    SucceedAlike ((Fields.cons name shape .nil).encode (value, ())) wire := by
  rw [← Wire.writeBoth_nil wire]
  refine only.cons ?_
  exact .pure _

end SucceedAlike

namespace Payload

/-- Counts are written alike. -/
theorem succeedAlike_count (tooLarge : MessageError) (count : Nat) :
    SucceedAlike (compactCountBytes count) (Wire.writeCount tooLarge count) := by
  intro bytes
  rw [compactCountBytes, Outcome.mapError_eq_ok_iff, Wire.writeCount_eq_ok_iff]

/-- Byte strings behind their count are written alike. -/
theorem succeedAlike_writeBytes (tooLarge : MessageError) (value : Bytes) :
    SucceedAlike (Shape.compactBytes.encode value) (Wire.writeBytes tooLarge value) := by
  change SucceedAlike ((Shape.compactSequence .byte).encode value) _
  obtain ⟨parts, written, joined⟩ := mapM_encode_byte value
  rw [Shape.encode_compactSequence, written]
  refine (succeedAlike_count tooLarge _).bind fun count => ?_
  rw [← joined]
  exact .pure _

/-- Lists of items that are written alike are written alike, behind their count. -/
theorem succeedAlike_writeList [Layout α] {write : α → Except MessageError Bytes}
    (each : ∀ item, SucceedAlike (Payload.toBytes item) (write item)) (tooLarge : MessageError)
    (items : List α) :
    SucceedAlike ((Layout.compactList α).shape.encode ((Layout.compactList α).toValue items))
      (Wire.writeList write tooLarge items) := by
  change SucceedAlike ((Shape.compactSequence (Layout.shape α)).encode (items.map Layout.toValue)) _
  rw [Shape.encode_compactSequence, List.mapM_map, List.length_map]
  refine (succeedAlike_count tooLarge _).bind fun count => ?_
  refine (SucceedAlike.mapM each items).bind fun parts => ?_
  exact .pure _

end Payload

/-- A header is written alike. -/
theorem MessageHeader.succeedAlike_toBytes (header : MessageHeader) :
    SucceedAlike (Payload.toBytes header) (pure header.toBytes : Except MessageError Bytes) :=
  .pure _

/-- An address is written alike. -/
theorem Address.succeedAlike_toBytes (address : Address) :
    SucceedAlike (Payload.toBytes address) (pure address.toBytes : Except MessageError Bytes) := by
  change SucceedAlike ((Shape.array 32 .byte).encode address.bytes) _
  rw [Shape.encode_block]
  exact .pure _

/-- A hash is written alike. -/
theorem Hash.succeedAlike_toBytes (hash : Hash) :
    SucceedAlike (Payload.toBytes hash) (pure hash.toBytes : Except MessageError Bytes) := by
  change SucceedAlike ((Shape.array 32 .byte).encode hash.bytes) _
  rw [Shape.encode_block]
  exact .pure _

/-- An instruction is written alike. -/
theorem CompiledInstruction.succeedAlike_toBytes (instruction : CompiledInstruction) :
    SucceedAlike (Payload.toBytes instruction) instruction.toBytes := by
  rw [toBytes_eq_writeBoth]
  change SucceedAlike ((Shape.record (.cons _ .byte _)).encode _) _
  rw [Shape.encode_record]
  have program : SucceedAlike (Shape.byte.encode instruction.programIdIndex)
      (pure [instruction.programIdIndex] : Except MessageError Bytes) := .pure _
  exact program.cons ((succeedAlike_writeBytes _ _).cons (succeedAlike_writeBytes _ _).last)

/-- A lookup is written alike. -/
theorem TableLookup.succeedAlike_toBytes (lookup : TableLookup) :
    SucceedAlike (Payload.toBytes lookup) lookup.toBytes := by
  rw [toBytes_eq_writeBoth]
  change SucceedAlike ((Shape.record (.cons _ (Layout.shape Address) _)).encode _) _
  rw [Shape.encode_record]
  exact lookup.tableKey.succeedAlike_toBytes.cons
    ((succeedAlike_writeBytes _ _).cons (succeedAlike_writeBytes _ _).last)

namespace LegacyMessage

/-- The fields that both formats begin with are written alike, and so is what follows them where
that is. -/
theorem succeedAlike_fields (message : LegacyMessage) {fields : Fields} {values : fields.Value}
    {wire : Except MessageError Bytes} (others : SucceedAlike (fields.encode values) wire) :
    SucceedAlike ((LegacyMessage.fields fields).encode (message.fieldValues values))
      (Wire.writeBoth message.toBytes wire) := by
  have keys := succeedAlike_writeList Address.succeedAlike_toBytes .tooManyAccountKeys
    message.accountKeys
  have instructions := succeedAlike_writeList CompiledInstruction.succeedAlike_toBytes
    .tooManyInstructions message.instructions
  rw [toBytes_eq_writeBoth]
  simp only [Wire.writeBoth_assoc]
  exact message.header.succeedAlike_toBytes.cons
    (keys.cons (message.recentBlockhash.succeedAlike_toBytes.cons (instructions.cons others)))

/-- A legacy message is written alike. -/
theorem succeedAlike_toBytes (message : LegacyMessage) :
    SucceedAlike (Payload.toBytes message) message.toBytes := by
  rw [← Wire.writeBoth_nil message.toBytes]
  change SucceedAlike ((Shape.record (LegacyMessage.fields .nil)).encode _) _
  rw [Shape.encode_record]
  exact message.succeedAlike_fields (.pure [])

end LegacyMessage

/-- A version 0 message of which every lookup selects something is written alike, behind its
mark. -/
theorem V0Message.succeedAlike_toBytes (message : V0Message)
    (selecting : message.withoutEmptyLookups = message) :
    SucceedAlike ((Payload.toBytes message).map fun bytes => versionMark :: bytes)
      message.toBytes := by
  have kept : message.writtenLookups = message.addressTableLookups :=
    congrArg addressTableLookups selecting
  rw [toBytes_eq_writeBoth, Wire.writeBoth_byte, kept]
  refine SucceedAlike.map (fun bytes => versionMark :: bytes) ?_
  change SucceedAlike ((Shape.record (LegacyMessage.fields _)).encode _) _
  rw [Shape.encode_record]
  exact message.toLegacyMessage.succeedAlike_fields
    (succeedAlike_writeList TableLookup.succeedAlike_toBytes _ _).last

end Transact
