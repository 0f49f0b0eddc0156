import Transact.Address
import Transact.CompactLength

/-!
# Faults of messages

One type for every way in which a message cannot be written, cannot be read, does not agree with
itself, or cannot be resolved against the tables it refers to.
-/

namespace Transact

/-- What is wrong with a message or with the bytes of one. -/
inductive MessageError where
  /-- The input ended before the message did. -/
  | bufferTooSmall
  /-- A count is not written as counts are. -/
  | invalidCompactLength (fault : CompactLength.Error)
  /-- The first byte announces a version that is not known. -/
  | unsupportedVersion (version : UInt8)
  /-- The first byte announces a version where none was expected. -/
  | unexpectedVersionPrefix
  /-- The first byte announces no version where one was expected. -/
  | missingVersionPrefix
  /-- Bytes are left over after the message. -/
  | trailingData
  /-- There are more account keys than a count can hold. -/
  | tooManyAccountKeys
  /-- There are more instructions than a count can hold. -/
  | tooManyInstructions
  /-- An instruction has more accounts than a count can hold. -/
  | instructionAccountsTooLarge
  /-- An instruction has more data than a count can hold. -/
  | instructionDataTooLarge
  /-- There are more lookups than a count can hold. -/
  | tooManyAddressTableLookups
  /-- A lookup has more indexes than a count can hold. -/
  | addressTableLookupTooLarge
  /-- Nobody signs. -/
  | zeroSigners
  /-- The first signer, who pays, is not writable. -/
  | noWritableFeePayer
  /-- The header describes more keys than there are. -/
  | notEnoughAddressesForSignatures
  /-- A key stands in the message twice. -/
  | duplicateAccountKey
  /-- There are more keys than one byte can index. -/
  | tooManyAccountsReferenced
  /-- A program is out of bounds or is the payer. -/
  | invalidProgramIdIndex
  /-- An instruction's account is out of bounds. -/
  | invalidInstructionAccountIndex
  /-- A lookup selects nothing. -/
  | emptyAddressTableLookup
  /-- A lookup names a table that is not at hand. -/
  | lookupTableNotProvided (table : Address)
  /-- A lookup names a place past the end of its table. -/
  | addressNotInLookupTable (table : Address) (index : UInt8)
deriving DecidableEq

/-- The report of each fault. -/
def MessageError.report [Base58.Converter 32 44] : MessageError → String
  | .bufferTooSmall => "buffer too small"
  | .invalidCompactLength fault => s!"invalid compact length: {fault.report}"
  | .unsupportedVersion version => s!"unsupported message version {version}"
  | .unexpectedVersionPrefix => "unexpected version prefix on a legacy message"
  | .missingVersionPrefix => "missing version prefix"
  | .trailingData => "unexpected trailing data"
  | .tooManyAccountKeys => "too many account keys (max 65535)"
  | .tooManyInstructions => "too many instructions (max 65535)"
  | .instructionAccountsTooLarge => "instruction has too many accounts (max 65535)"
  | .instructionDataTooLarge => "instruction data too large (max 65535 bytes)"
  | .tooManyAddressTableLookups => "too many address table lookups (max 65535)"
  | .addressTableLookupTooLarge => "address table lookup has too many indexes (max 65535)"
  | .zeroSigners => "must have at least one signer (fee payer)"
  | .noWritableFeePayer => "fee payer must be writable"
  | .notEnoughAddressesForSignatures =>
    "not enough addresses for the counts in the message header"
  | .duplicateAccountKey => "duplicate account key"
  | .tooManyAccountsReferenced => "too many accounts referenced (max 256)"
  | .invalidProgramIdIndex => "program id index out of bounds or is fee payer"
  | .invalidInstructionAccountIndex => "instruction account index out of bounds"
  | .emptyAddressTableLookup => "address table lookup selects no addresses"
  | .lookupTableNotProvided table => s!"lookup table {table} was not provided"
  | .addressNotInLookupTable table index =>
    s!"lookup table {table} has no address at index {index}"

end Transact
