import Transact.Hash
import Transact.Message.CompiledInstruction
import Transact.Message.Header

/-!
# Legacy messages

A message is the part of a transaction that signatures cover. The first format carries every key
that its instructions refer to.
-/

namespace Transact

/-- A message in the format that carries all of its keys. -/
structure LegacyMessage where
  /-- The counts that divide the keys into groups. -/
  header : MessageHeader
  /-- The keys, in the order of the groups. -/
  accountKeys : List Address
  /-- The hash of a recent block, which limits how long the message is valid. -/
  recentBlockhash : Hash
  /-- The instructions, which run in order and all or not at all. -/
  instructions : List CompiledInstruction
deriving DecidableEq

namespace LegacyMessage

/-- The message of nothing. -/
def empty : LegacyMessage := ⟨MessageHeader.zero, [], Hash.zero, []⟩

instance : Inhabited LegacyMessage := ⟨empty⟩

/-- The first signer pays. -/
def feePayer? (message : LegacyMessage) : Option Address :=
  if message.header.signers = 0 then none else message.accountKeys.head?

/-- Whether the key at a place signs. -/
def isSigner (message : LegacyMessage) (index : Nat) : Bool := message.header.isSigner index

/-- Whether a place among `keys` keys falls in one of the two writable groups. The first is the
signers without the readonly ones, the second begins after the signers and ends before the readonly
others. -/
def isWritablePlace (header : MessageHeader) (keys index : Nat) : Bool :=
  decide (index < header.signers - header.readonlySigners ∨
    (index ≥ header.signers ∧ index < keys - header.readonlyOthers))

/-- Whether the key at a place stands in one of the two writable groups. -/
def isWritableIndex (message : LegacyMessage) (index : Nat) : Bool :=
  isWritablePlace message.header message.accountKeys.length index

/-- Whether the key at a place is the program of some instruction. -/
def isKeyCalledAsProgram (message : LegacyMessage) (index : Nat) : Bool :=
  message.instructions.any fun instruction => instruction.programIdIndex.toNat == index

/-- Whether the key at a place may be written. A program is never written, whatever group it
stands in. -/
def isMaybeWritable (message : LegacyMessage) (index : Nat) : Bool :=
  message.isWritableIndex index && !message.isKeyCalledAsProgram index

/-- The keys that must sign, as far as there are keys. -/
def signerKeys (message : LegacyMessage) : List Address :=
  message.accountKeys.take message.header.signers

/-- Whether a key stands in the message twice. -/
def hasDuplicates (message : LegacyMessage) : Bool :=
  Address.hasDuplicates message.accountKeys

/-- Check that header, keys and places agree with each other. -/
def sanitize (message : LegacyMessage) : Except MessageError Unit := do
  let keys := message.accountKeys.length
  message.header.sanitize keys
  if keys > 256 then throw .tooManyAccountsReferenced
  if message.hasDuplicates then throw .duplicateAccountKey
  CompiledInstruction.sanitizeAll keys keys message.instructions

/-- The instructions that the message stands for, with permissions as `isSigner` and
`isWritableIndex` have them. The keys are counted once for all places. -/
def decompile (message : LegacyMessage) : Except MessageError (List Instruction) :=
  message.instructions.mapM
    (CompiledInstruction.decompile ⟨message.accountKeys, none⟩ message.header.isSigner
      (isWritablePlace message.header message.accountKeys.length))

end LegacyMessage

end Transact
