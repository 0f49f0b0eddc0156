import Transact.Compile.KeyTable
import Transact.Message.Error
import Transact.Signer

/-!
# Faults of transactions

There is no fault for a size that overflows. Where sizes are added up, the number of signatures has
already been compared with a count of one byte, or has been read from a compact length, so no size
is near the limit of a machine word.
-/

namespace Transact

/-- Why a transaction cannot be built, written, read or checked. -/
inductive TransactionError where
  /-- Its message is at fault. -/
  | message (fault : MessageError)
  /-- Its instructions cannot be compiled. -/
  | compile (fault : CompileError)
  /-- It cannot be signed. -/
  | signer (fault : SignerError)
  /-- A key that must sign has no signature. -/
  | missingSignature (key : Address)
  /-- The message requires more signatures than it has keys. -/
  | notEnoughAccountKeys
  /-- The input ended before the signatures did. -/
  | notEnoughSignatureBytes
  /-- The number of signatures is not written as counts are. -/
  | invalidSignatureCount (fault : CompactLength.Error)
  /-- There are not as many signatures as the message requires. -/
  | signatureCountMismatch (expected actual : Nat)
  /-- Bytes are left over after the transaction. -/
  | trailingData
deriving DecidableEq

/-- The report of each fault. -/
def TransactionError.report [Base58.Converter 32 44] : TransactionError → String
  | .message fault => s!"message error: {fault.report}"
  | .compile fault => s!"compile error: {fault.report}"
  | .signer fault => s!"signer error: {fault.report}"
  | .missingSignature key => s!"missing signature for {key}"
  | .notEnoughAccountKeys => "not enough account keys for required signatures"
  | .notEnoughSignatureBytes => "not enough bytes for signatures"
  | .invalidSignatureCount fault => s!"invalid signature count: {fault.report}"
  | .signatureCountMismatch expected actual =>
    s!"signature count mismatch: expected {expected}, got {actual}"
  | .trailingData => "unexpected trailing data after transaction"

end Transact
