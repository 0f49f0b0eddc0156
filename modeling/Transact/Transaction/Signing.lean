import Transact.Compile.Message
import Transact.Ed25519.Scheme
import Transact.Text.Converter
import Transact.Transaction.Wire

/-!
# Gathering signatures

There are three ways to fill the slots of a transaction: all signers at once, some signers at a
time, or from signatures that were made elsewhere. Each finds the slot of a signature by its key,
never by the order in which signers are given.

What stands here is the surface of the library, so the signature scheme and the converter of texts
that it is run with come in with it. No definition depends on either.
-/

namespace Transact.Transaction

-- The words for a message that cannot be written may show an address.
variable [Base58.Converter 32 44]

/-- The first place of a key in a list; a key that is not there is a mismatch. -/
def placeOf (keys : List Address) (key : Address) : Except SignerError Nat :=
  match keys.idxOf? key with
  | some place => .ok place
  | none => .error .keypairPubkeyMismatch

/-- The signature at a place; a missing one means that a signer did not deliver. -/
def signatureAt (signatures : List Signature) (place : Nat) : Except SignerError Signature :=
  match signatures[place]? with
  | some signature => .ok signature
  | none => .error .notEnoughSigners

/-- The bytes to sign; a message that cannot be written is invalid input to a signer. -/
def dataToSign (message : Message) : Except SignerError Bytes :=
  message.toBytes.mapError fun fault => .invalidInput fault.report

/-- The keys that must sign; a message that lacks them is invalid input to a signer. -/
def keysToSign (message : Message) : Except SignerError (List Address) :=
  match message.requiredSigners? with
  | some keys => .ok keys
  | none => .error (.invalidInput "invalid message")

/-- Sign a message with exactly the signers that it requires, in any order. -/
def sign (message : Message) (signers : Signers) : Except SignerError Transaction := do
  let expected ← keysToSign message
  let offered ← signers.tryPubkeys
  if offered.length > expected.length then throw .tooManySigners
  if offered.length < expected.length then throw .notEnoughSigners
  let data ← dataToSign message
  let places ← expected.mapM (placeOf offered)
  let made ← signers.trySign data
  let signatures ← places.mapM (signatureAt made)
  return ⟨signatures, message⟩

/-- Sign with some of the required signers, leaving the other slots as they are. Where several
signatures belong in one slot the last of them stays. -/
def partialSign (transaction : Transaction) (signers : Signers) :
    Except SignerError Transaction := do
  let expected ← keysToSign transaction.message
  if transaction.signatures.length ≠ expected.length then
    throw (.invalidInput "signature slots do not match required signers")
  let offered ← signers.tryPubkeys
  let places ← offered.mapM (placeOf expected)
  let data ← dataToSign transaction.message
  let made ← signers.trySign data
  let signatures := (places.zip made).foldl
    (fun slots (place, signature) => slots.set place signature) transaction.signatures
  return { transaction with signatures }

/-- Fill every slot from signatures under their keys. Of several signatures under one key the last
counts, and signatures under other keys are passed over. -/
def assemble (message : Message) (signatures : List (Address × Signature)) :
    Except TransactionError Transaction :=
  match message.requiredSigners? with
  | none => .error .notEnoughAccountKeys
  | some keys => do
    let filled ← keys.mapM fun key =>
      match signatures.reverse.lookup key with
      | some signature => .ok signature
      | none => .error (.missingSignature key)
    return ⟨filled, message⟩

/-- Compile instructions, sign the message and write the transaction. -/
def createRaw (payer : Option Address) (instructions : List Instruction) (signers : Signers)
    (recentBlockhash : Hash) : Except TransactionError Bytes := do
  let message ← (LegacyMessage.compile payer instructions recentBlockhash).mapError .compile
  let transaction ← (sign (.legacy message) signers).mapError .signer
  transaction.toBytes

end Transact.Transaction
