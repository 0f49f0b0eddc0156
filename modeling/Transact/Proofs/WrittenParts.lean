import Transact.Message.Wire

/-!
# Messages as their parts in a row

The wire form of a message is its parts one behind the other, and each part is a fixed block, a byte
string behind its count or a list behind its count. The equations here say which parts, in the order
in which they stand and in which a fault among them is found (`LegacyMessage.toBytes_eq_writeBoth`,
`V0Message.toBytes_eq_writeBoth`). What holds of writers put together in this way then holds of
messages.
-/

namespace Transact

namespace Wire

/-- Write two parts one behind the other. -/
def writeBoth (first second : Except MessageError Bytes) : Except MessageError Bytes := do
  let front ← first
  let behind ← second
  return front ++ behind

/-- Nothing behind a part leaves the part. -/
theorem writeBoth_nil (part : Except MessageError Bytes) :
    writeBoth part (pure []) = part := by
  simp only [writeBoth, pure_bind, List.append_nil, bind_pure]

/-- Three parts in a row may be joined from either end. -/
theorem writeBoth_assoc (first second third : Except MessageError Bytes) :
    writeBoth (writeBoth first second) third = writeBoth first (writeBoth second third) := by
  simp only [writeBoth, pure_bind, bind_assoc, List.append_assoc]

/-- A byte in front of a part is put in front of what is written for the part. -/
theorem writeBoth_byte (byte : UInt8) (part : Except MessageError Bytes) :
    writeBoth (pure [byte]) part = (fun bytes => byte :: bytes) <$> part := by
  simp only [writeBoth, pure_bind, bind_pure_comp]
  rfl

/-- Write the items of a list behind their count. -/
def writeList {α : Type} (write : α → Except MessageError Bytes) (tooLarge : MessageError)
    (items : List α) : Except MessageError Bytes := do
  let count ← writeCount tooLarge items.length
  let parts ← items.mapM write
  return count ++ parts.flatten

end Wire

open Wire

/-- An instruction is its program's place, its accounts and its data. -/
theorem CompiledInstruction.toBytes_eq_writeBoth (instruction : CompiledInstruction) :
    instruction.toBytes = writeBoth (pure [instruction.programIdIndex])
      (writeBoth (writeBytes .instructionAccountsTooLarge instruction.accounts)
        (writeBytes .instructionDataTooLarge instruction.data)) := by
  simp only [toBytes, writeBoth, pure_bind, bind_assoc, List.singleton_append]

/-- A lookup is the address of its table, its writable and its readonly places. -/
theorem TableLookup.toBytes_eq_writeBoth (lookup : TableLookup) :
    lookup.toBytes = writeBoth (pure lookup.tableKey.toBytes)
      (writeBoth (writeBytes .addressTableLookupTooLarge lookup.writableIndexes)
        (writeBytes .addressTableLookupTooLarge lookup.readonlyIndexes)) := by
  simp only [toBytes, writeBoth, pure_bind, bind_assoc, List.append_assoc]

/-- A legacy message is its header, its keys, the recent block hash and its instructions. -/
theorem LegacyMessage.toBytes_eq_writeBoth (message : LegacyMessage) :
    message.toBytes = writeBoth (pure message.header.toBytes)
      (writeBoth (writeList (fun key => pure key.toBytes) .tooManyAccountKeys message.accountKeys)
        (writeBoth (pure message.recentBlockhash.toBytes)
          (writeList CompiledInstruction.toBytes .tooManyInstructions message.instructions))) := by
  simp only [toBytes, writeBoth, writeList, List.mapM_pure, pure_bind, bind_assoc,
    List.append_assoc]

/-- A version 0 message is its mark, the common part and the lookups that are written. -/
theorem V0Message.toBytes_eq_writeBoth (message : V0Message) :
    message.toBytes = writeBoth (pure [versionMark]) (writeBoth message.toLegacyMessage.toBytes
      (writeList TableLookup.toBytes .tooManyAddressTableLookups message.writtenLookups)) := by
  simp only [toBytes, writeBoth, writeList, pure_bind, bind_assoc, List.singleton_append]

end Transact
