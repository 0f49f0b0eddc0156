import Transact.Message.Versioned
import Transact.Reader

/-!
# The wire form of messages

A message is written as its three header counts, its keys, the recent block hash and its
instructions. Every list stands behind a compact length. A version 0 message has a mark in front,
which no message with fewer than 128 signers can begin with, and its lookups behind.

Two things are read more freely than they are written: a version 0 message may end right after its
instructions, which means that it has no lookups, and a lookup may select nothing, though such
lookups are never written.
-/

namespace Transact

/-- The mark of a version in a message's first byte; the other seven bits are the number. -/
def versionMark : UInt8 := 0x80

/-- Whether a first byte carries the mark of a version. -/
def hasVersionMark (first : UInt8) : Bool := decide (first ≥ versionMark)

namespace Wire

/-- The count in front of a list; `tooLarge` is the fault of a list that is too long for one. -/
def writeCount (tooLarge : MessageError) (count : Nat) : Except MessageError Bytes :=
  match CompactLength.encode count with
  | .ok bytes => .ok bytes
  | .error _ => .error tooLarge

/-- A byte string behind its count. -/
def writeBytes (tooLarge : MessageError) (bytes : Bytes) : Except MessageError Bytes := do
  let count ← writeCount tooLarge bytes.length
  return count ++ bytes

/-- Take the count in front of a list. Running out of bytes is the same fault everywhere in a
message; any other fault of the count is reported as it is. -/
def readCount : Reader MessageError Nat := fun input =>
  match CompactLength.decode input with
  | .ok taken => .ok taken
  | .error .insufficientData => .error .bufferTooSmall
  | .error fault => .error (.invalidCompactLength fault)

/-- Take a byte string behind its count. -/
def readBytes : Reader MessageError Bytes := fun input => do
  let (count, rest) ← readCount input
  Reader.bytes .bufferTooSmall count rest

/-- Take an address. -/
def readAddress : Reader MessageError Address := fun input => do
  let (bytes, rest) ← Reader.block .bufferTooSmall 32 input
  return (⟨bytes⟩, rest)

/-- Take a hash. -/
def readHash : Reader MessageError Hash := fun input => do
  let (bytes, rest) ← Reader.block .bufferTooSmall 32 input
  return (⟨bytes⟩, rest)

/-- The number of bytes of `count` items of a fixed size behind their count. -/
def runSize (count itemSize : Nat) : Nat := CompactLength.encodedSize count + count * itemSize

end Wire

open Wire

namespace MessageHeader

/-- The three counts, a byte each. -/
def toBytes (header : MessageHeader) : Bytes :=
  [header.numRequiredSignatures, header.numReadonlySignedAccounts,
    header.numReadonlyUnsignedAccounts]

/-- Take the three counts. -/
def read : Reader MessageError MessageHeader
  | signers :: readonlySigners :: readonlyOthers :: rest =>
    .ok (⟨signers, readonlySigners, readonlyOthers⟩, rest)
  | _ => .error .bufferTooSmall

end MessageHeader

namespace CompiledInstruction

/-- The program's place, then the accounts' places and the data behind their counts. -/
def toBytes (instruction : CompiledInstruction) : Except MessageError Bytes := do
  let accounts ← writeBytes .instructionAccountsTooLarge instruction.accounts
  let data ← writeBytes .instructionDataTooLarge instruction.data
  return instruction.programIdIndex :: (accounts ++ data)

/-- Take an instruction. -/
def read : Reader MessageError CompiledInstruction := fun input => do
  let (programIdIndex, rest) ← Reader.byte .bufferTooSmall input
  let (accounts, rest) ← readBytes rest
  let (data, rest) ← readBytes rest
  return ({ programIdIndex, accounts, data }, rest)

/-- The number of bytes of an instruction. -/
def size (instruction : CompiledInstruction) : Nat :=
  1 + runSize instruction.accounts.length 1 + runSize instruction.data.length 1

end CompiledInstruction

namespace TableLookup

/-- The table's address, then the two lists of places behind their counts. -/
def toBytes (lookup : TableLookup) : Except MessageError Bytes := do
  let writable ← writeBytes .addressTableLookupTooLarge lookup.writableIndexes
  let readonly ← writeBytes .addressTableLookupTooLarge lookup.readonlyIndexes
  return lookup.tableKey.toBytes ++ writable ++ readonly

/-- Take a lookup. -/
def read : Reader MessageError TableLookup := fun input => do
  let (tableKey, rest) ← readAddress input
  let (writableIndexes, rest) ← readBytes rest
  let (readonlyIndexes, rest) ← readBytes rest
  return ({ tableKey, writableIndexes, readonlyIndexes }, rest)

/-- Take the lookups at the end of a message. Where the input has ended, there are none. -/
def readAll : Reader MessageError (List TableLookup) := fun input =>
  if input.isEmpty then .ok ([], input)
  else do
    let (count, rest) ← readCount input
    let (lookups, rest) ← Reader.many read count rest
    return (lookups.toList, rest)

/-- The number of bytes of a lookup. -/
def size (lookup : TableLookup) : Nat :=
  32 + runSize lookup.writableIndexes.length 1 + runSize lookup.readonlyIndexes.length 1

end TableLookup

namespace LegacyMessage

/-- The bytes that signatures cover. The first count that is too large is the one reported. -/
def toBytes (message : LegacyMessage) : Except MessageError Bytes := do
  let keyCount ← writeCount .tooManyAccountKeys message.accountKeys.length
  let instructionCount ← writeCount .tooManyInstructions message.instructions.length
  let instructions ← message.instructions.mapM CompiledInstruction.toBytes
  return message.header.toBytes ++
    (keyCount ++ ((message.accountKeys.map Address.toBytes).flatten ++
      (message.recentBlockhash.toBytes ++ (instructionCount ++ instructions.flatten))))

/-- Take what both formats have in common, whatever the first byte. -/
def readCommon : Reader MessageError LegacyMessage := fun input => do
  let (header, rest) ← MessageHeader.read input
  let (keyCount, rest) ← readCount rest
  let (accountKeys, rest) ← Reader.many readAddress keyCount rest
  let (recentBlockhash, rest) ← readHash rest
  let (instructionCount, rest) ← readCount rest
  let (instructions, rest) ← Reader.many CompiledInstruction.read instructionCount rest
  return ({ header, accountKeys := accountKeys.toList, recentBlockhash,
            instructions := instructions.toList }, rest)

/-- Take a message of this format, whose first byte has no version mark. -/
def read : Reader MessageError LegacyMessage := fun input =>
  if input.head?.any hasVersionMark then .error .unexpectedVersionPrefix
  else readCommon input

/-- Read a message that must span the input. -/
def ofBytes : Bytes → Except MessageError LegacyMessage :=
  Reader.whole read fun _ => .trailingData

/-- Read a message off the front of an input and count its bytes. -/
def ofBytesPartial : Bytes → Except MessageError (LegacyMessage × Nat) := Reader.counted read

/-- The number of bytes of the wire form, found without writing it. -/
def size (message : LegacyMessage) : Nat :=
  3 + runSize message.accountKeys.length 32 + 32 +
    CompactLength.encodedSize message.instructions.length +
    message.instructions.foldr (fun instruction total => instruction.size + total) 0

end LegacyMessage

namespace V0Message

/-- The lookups that are written: those that select something. -/
def writtenLookups (message : V0Message) : List TableLookup :=
  message.addressTableLookups.filter fun lookup => !lookup.isEmpty

/-- The bytes that signatures cover: the mark, the common part and the lookups. -/
def toBytes (message : V0Message) : Except MessageError Bytes := do
  let common ← message.toLegacyMessage.toBytes
  let lookupCount ← writeCount .tooManyAddressTableLookups message.writtenLookups.length
  let lookups ← message.writtenLookups.mapM TableLookup.toBytes
  return versionMark :: (common ++ (lookupCount ++ lookups.flatten))

/-- Take a message of this format, whose first byte is the mark of version 0. -/
def read : Reader MessageError V0Message := fun input => do
  let (first, rest) ← Reader.byte .bufferTooSmall input
  if !hasVersionMark first then throw .missingVersionPrefix
  let version := first - versionMark
  if version ≠ 0 then throw (.unsupportedVersion version)
  let (common, rest) ← LegacyMessage.readCommon rest
  let (addressTableLookups, rest) ← TableLookup.readAll rest
  return ({ toLegacyMessage := common, addressTableLookups }, rest)

/-- Read a message that must span the input. -/
def ofBytes : Bytes → Except MessageError V0Message :=
  Reader.whole read fun _ => .trailingData

/-- Read a message off the front of an input and count its bytes. -/
def ofBytesPartial : Bytes → Except MessageError (V0Message × Nat) := Reader.counted read

/-- The number of bytes of the wire form, found without writing it. -/
def size (message : V0Message) : Nat :=
  1 + message.toLegacyMessage.size + CompactLength.encodedSize message.writtenLookups.length +
    message.writtenLookups.foldr (fun lookup total => lookup.size + total) 0

end V0Message

namespace Message

/-- The bytes that signatures cover. -/
def toBytes : Message → Except MessageError Bytes
  | .legacy message => message.toBytes
  | .v0 message => message.toBytes

/-- Take a message of either format; the first byte tells which. -/
def read : Reader MessageError Message := fun input =>
  match input with
  | [] => .error .bufferTooSmall
  | first :: _ =>
    if hasVersionMark first then
      (V0Message.read input).map fun (message, rest) => (.v0 message, rest)
    else (LegacyMessage.read input).map fun (message, rest) => (.legacy message, rest)

/-- Read a message that must span the input. -/
def ofBytes : Bytes → Except MessageError Message := Reader.whole read fun _ => .trailingData

/-- Read a message off the front of an input and count its bytes. -/
def ofBytesPartial : Bytes → Except MessageError (Message × Nat) := Reader.counted read

/-- The number of bytes of the wire form, found without writing it. -/
def size : Message → Nat
  | .legacy message => message.size
  | .v0 message => message.size

end Message

end Transact
