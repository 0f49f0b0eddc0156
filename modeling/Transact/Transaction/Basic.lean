import Transact.Message.Wire
import Transact.Transaction.Error

/-!
# Transactions

A transaction is a message with one signature slot for each key that must sign, in the order of the
keys. A slot that holds the zero signature has not been signed. Nothing keeps the slots and the
message in step while either is being edited, so every use of both checks their number first.
-/

namespace Transact

/-- A message with its signatures. -/
structure Transaction where
  /-- The signatures, one for each key that must sign. -/
  signatures : List Signature
  /-- What the signatures are of. -/
  message : Message
deriving DecidableEq

/-- The number of signatures that a message requires. -/
def Message.requiredSignatures (message : Message) : Nat := message.header.signers

/-- The keys that must sign a message, if it has as many keys as its header requires. -/
def Message.requiredSigners? (message : Message) : Option (List Address) :=
  let keys := message.staticAccountKeys.take message.requiredSignatures
  if keys.length = message.requiredSignatures then some keys else none

namespace Transaction

/-- The transaction of nothing. -/
def empty : Transaction := ⟨[], .legacy LegacyMessage.empty⟩

instance : Inhabited Transaction := ⟨empty⟩

/-- A transaction that nobody has signed. -/
def unsigned (message : Message) : Transaction :=
  ⟨List.replicate message.requiredSignatures Signature.zero, message⟩

/-- Check that there are as many signatures as the message requires. -/
def checkSignatureCount (transaction : Transaction) : Except TransactionError Unit :=
  let expected := transaction.message.requiredSignatures
  let actual := transaction.signatures.length
  if actual = expected then .ok () else .error (.signatureCountMismatch expected actual)

/-- A transaction with signatures that are known already. -/
def ofSignatures (message : Message) (signatures : List Signature) :
    Except TransactionError Transaction := do
  let transaction : Transaction := ⟨signatures, message⟩
  transaction.checkSignatureCount
  return transaction

/-- The bytes that the signatures cover. -/
def messageData (transaction : Transaction) : Except TransactionError Bytes :=
  transaction.message.toBytes.mapError .message

/-- Check that there are as many signatures as required and that the message agrees with itself. -/
def sanitize (transaction : Transaction) : Except TransactionError Unit := do
  transaction.checkSignatureCount
  transaction.message.sanitize.mapError .message

section Checking

variable [SignatureScheme]

/-- Check each signature against the key of its slot. -/
def verifyEach (transaction : Transaction) : Except TransactionError (List Bool) := do
  transaction.checkSignatureCount
  match transaction.message.requiredSigners? with
  | none => throw .notEnoughAccountKeys
  | some keys =>
    let data ← transaction.messageData
    return List.zipWith (fun signature key => signature.verify key.toBytes data)
      transaction.signatures keys

/-- Check that every signature is valid for the key of its slot. -/
def verify (transaction : Transaction) : Except TransactionError Bool := do
  let results ← transaction.verifyEach
  return results.all id

end Checking

end Transaction

end Transact
