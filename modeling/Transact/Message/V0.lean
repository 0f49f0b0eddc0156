import Transact.Message.Legacy

/-!
# Version 0 messages

A version 0 message is a legacy message with a list of table lookups. The places in its
instructions run on past its own keys through the loaded ones, first all writable ones and then all
readonly ones. Loaded keys never sign and are never programs.
-/

namespace Transact

/-- A message that loads some of its keys from tables. Its header describes only the keys that the
message carries. -/
structure V0Message extends LegacyMessage where
  /-- The selections from tables, in order. -/
  addressTableLookups : List TableLookup
deriving DecidableEq

namespace V0Message

/-- How many keys the lookups load as writable. -/
def numLoadedWritable (message : V0Message) : Nat :=
  message.addressTableLookups.foldr (fun lookup total => lookup.writableIndexes.length + total) 0

/-- How many keys the lookups load. -/
def numLoaded (message : V0Message) : Nat :=
  message.addressTableLookups.foldr (fun lookup total => lookup.selected + total) 0

/-- Whether a place is writable, behind `keys` carried keys and with `loadedWritable` keys loaded as
writable. A loaded key is judged by the selection that loads it, any other by its distance from the
start of its group. -/
def isWritablePlace (header : MessageHeader) (keys loadedWritable index : Nat) : Bool :=
  if index ≥ keys then decide (index - keys < loadedWritable)
  else if index ≥ header.signers then
    decide (index - header.signers < keys - header.signers - header.readonlyOthers)
  else decide (index < header.signers - header.readonlySigners)

/-- Whether the key at a place is writable. -/
def isWritableIndex (message : V0Message) (index : Nat) : Bool :=
  isWritablePlace message.header message.accountKeys.length message.numLoadedWritable index

/-- Whether the key at a place may be written. A program is never written. -/
def isMaybeWritable (message : V0Message) (index : Nat) : Bool :=
  message.isWritableIndex index && !message.isKeyCalledAsProgram index

/-- Check that header, keys, lookups and places agree with each other. What the tables hold is not
needed: a lookup loads as many keys as it has indexes. -/
def sanitize (message : V0Message) : Except MessageError Unit := do
  let static := message.accountKeys.length
  message.header.sanitize static
  if message.hasDuplicates then throw .duplicateAccountKey
  if message.addressTableLookups.any TableLookup.isEmpty then throw .emptyAddressTableLookup
  let total := static + message.numLoaded
  if total > 256 then throw .tooManyAccountsReferenced
  CompiledInstruction.sanitizeAll static total message.instructions

/-- The keys that the lookups load from the supplied tables. -/
def loadAddresses (message : V0Message) (tables : List LookupTable) :
    Except MessageError LoadedAddresses :=
  TableLookup.loadAll tables message.addressTableLookups

/-- The instructions that the message stands for, given the tables it refers to, with permissions as
`isSigner` and `isWritableIndex` have them. The keys are counted once for all places. -/
def decompile (message : V0Message) (tables : List LookupTable) :
    Except MessageError (List Instruction) := do
  let loaded ← message.loadAddresses tables
  message.instructions.mapM
    (CompiledInstruction.decompile ⟨message.accountKeys, some loaded⟩ message.header.isSigner
      (isWritablePlace message.header message.accountKeys.length message.numLoadedWritable))

end V0Message

end Transact
