import Transact.Keypair

/-!
# Signers

A signer is whatever can name a public key and sign for it: a key pair, or something that may be
out of reach and fail. Several signers act together as one list of keys and one list of signatures,
which need not come out equally long.
-/

namespace Transact

/-- Why signing fails. -/
inductive SignerError where
  /-- A signer's key is not wanted, or no signer has a wanted key. -/
  | keypairPubkeyMismatch
  /-- There are fewer signers or signatures than wanted. -/
  | notEnoughSigners
  /-- There are more signers than wanted. -/
  | tooManySigners
  /-- What is to be signed cannot be. -/
  | invalidInput (text : String)
  /-- A reason of the signer's own. -/
  | custom (text : String)
deriving DecidableEq

/-- The report of each fault. -/
def SignerError.report : SignerError → String
  | .keypairPubkeyMismatch => "keypair-pubkey mismatch"
  | .notEnoughSigners => "not enough signers"
  | .tooManySigners => "too many signers"
  | .invalidInput text => s!"invalid input: {text}"
  | .custom text => s!"custom error: {text}"

/-- Something that names a public key and signs for it. -/
structure Signer where
  /-- The public key, if it can be had. -/
  tryPubkey : Except SignerError Address
  /-- The signature of a message, if it can be had. -/
  trySign : Bytes → Except SignerError Signature

namespace Signer

/-- The public key, or the zero address where it cannot be had. -/
def pubkey (signer : Signer) : Address :=
  match signer.tryPubkey with
  | .ok key => key
  | .error _ => Address.zero

/-- The signature of a message, or the zero signature where it cannot be had. -/
def sign (signer : Signer) (message : Bytes) : Signature :=
  match signer.trySign message with
  | .ok signature => signature
  | .error _ => Signature.zero

end Signer

/-- A key pair never fails. -/
def Keypair.signer [SignatureScheme] (keypair : Keypair) : Signer where
  tryPubkey := .ok keypair.publicKey
  trySign message := .ok (keypair.sign message)

/-- A key pair stands for the same account as a signer with its public key. -/
def Keypair.agrees [SignatureScheme] (keypair : Keypair) (signer : Signer) : Bool :=
  keypair.publicKey == signer.pubkey

/-- Several signers acting together. -/
structure Signers where
  /-- The public keys, each or the zero address. -/
  pubkeys : List Address
  /-- The public keys, if all can be had. -/
  tryPubkeys : Except SignerError (List Address)
  /-- The signatures of a message, each or the zero signature. -/
  sign : Bytes → List Signature
  /-- The signatures of a message, if all can be had. -/
  trySign : Bytes → Except SignerError (List Signature)

namespace Signers

/-- The signers of a list, in order. The first failure is the failure of all. -/
def ofList (signers : List Signer) : Signers where
  pubkeys := signers.map Signer.pubkey
  tryPubkeys := signers.mapM Signer.tryPubkey
  sign message := signers.map fun signer => signer.sign message
  trySign message := signers.mapM fun signer => signer.trySign message

/-- Whether no two of the signers have the same key. -/
def areUnique (signers : Signers) : Bool := !Address.hasDuplicates signers.pubkeys

end Signers

end Transact
