import Transact.Transaction.Basic

/-!
# The wire form of transactions

The signatures come first, behind their number as a compact length, and the message follows. Only a
transaction with exactly the required number of signatures is written; reading does not compare the
two numbers.
-/

namespace Transact.Transaction

/-- Write a transaction. The number of signatures is checked before anything is written, and the
message is written before the signatures are counted out. -/
def toBytes (transaction : Transaction) : Except TransactionError Bytes := do
  transaction.checkSignatureCount
  let message ← transaction.messageData
  let count ← (CompactLength.encode transaction.signatures.length).mapError
    .invalidSignatureCount
  return count ++ ((transaction.signatures.map Signature.toBytes).flatten ++ message)

/-- Take the number of signatures. -/
def readCount : Reader TransactionError Nat := fun input =>
  match CompactLength.decode input with
  | .ok taken => .ok taken
  | .error .insufficientData => .error .notEnoughSignatureBytes
  | .error fault => .error (.invalidSignatureCount fault)

/-- Take a signature. -/
def readSignature : Reader TransactionError Signature := fun input => do
  let (bytes, rest) ← Reader.block .notEnoughSignatureBytes 64 input
  return (⟨bytes⟩, rest)

/-- Take a transaction. -/
def read : Reader TransactionError Transaction := fun input => do
  let (count, rest) ← readCount input
  let (signatures, rest) ← Reader.many readSignature count rest
  let (message, rest) ← (Message.read rest).mapError .message
  return ({ signatures := signatures.toList, message }, rest)

/-- Read a transaction that must span the input. -/
def ofBytes : Bytes → Except TransactionError Transaction :=
  Reader.whole read fun _ => .trailingData

/-- Read a transaction off the front of an input and count its bytes. -/
def ofBytesPartial : Bytes → Except TransactionError (Transaction × Nat) := Reader.counted read

/-- The number of bytes of the wire form, found without writing it. -/
def size (transaction : Transaction) : Nat :=
  Wire.runSize transaction.signatures.length 64 + transaction.message.size

end Transact.Transaction
