import Transact.FixedList

/-!
# Signature schemes

Keys are derived, messages are signed and signatures are checked by a scheme that the library is
handed. This module says what it asks of one: secrets and public keys of 32 bytes, signatures of 64,
a form of a key pair in which the secret comes before the public key, and a reader of public keys,
since not every 32 bytes are one.

Nothing is asked about what a scheme computes. Where a statement needs more, it says so: by the law
`DerivesKeys` for the keys, and for signatures by what the scheme accepts (`Accepts`).
-/

namespace Transact

/-- What the library asks of a signature scheme. -/
class SignatureScheme where
  /-- A secret with the public key that follows from it. -/
  SigningKey : Type
  /-- A public key that has been read. -/
  VerifyingKey : Type
  /-- Derive the signing key of a secret. -/
  ofSecret : FixedList 32 UInt8 → SigningKey
  /-- Read a secret before its public key. -/
  ofHalves : FixedList 64 UInt8 → Option SigningKey
  /-- Write the secret before the public key. -/
  toHalves : SigningKey → FixedList 64 UInt8
  /-- The secret of a signing key. -/
  secret : SigningKey → FixedList 32 UInt8
  /-- The public key of a signing key. -/
  verifyingKey : SigningKey → VerifyingKey
  /-- Sign a message. -/
  sign : SigningKey → Bytes → FixedList 64 UInt8
  /-- Read a public key. -/
  readKey : Bytes → Option VerifyingKey
  /-- The bytes of a public key. -/
  keyBytes : VerifyingKey → FixedList 32 UInt8
  /-- Check a signature of a message under a public key. -/
  verify : VerifyingKey → Bytes → FixedList 64 UInt8 → Bool

namespace SignatureScheme

/-- Keys are derived from secrets and nothing else, are written as their two halves, and are read
from two halves exactly when these match. -/
structure DerivesKeys [SignatureScheme] : Prop where
  /-- A derived key has the secret that it is derived from. -/
  secret_ofSecret : ∀ first : FixedList 32 UInt8, secret (ofSecret first) = first
  /-- Every key is the one that is derived from its secret. -/
  ofSecret_secret : ∀ key : SigningKey, ofSecret (secret key) = key
  /-- A key is written as its secret before its public key. -/
  toHalves_eq : ∀ key : SigningKey,
    toHalves key = (secret key).append (keyBytes (verifyingKey key))
  /-- A key is read from the secret that it is derived from before its own public key. -/
  ofHalves_eq_some_iff : ∀ (first second : FixedList 32 UInt8) (key : SigningKey),
    ofHalves (first.append second) = some key ↔
      ofSecret first = key ∧ keyBytes (verifyingKey key) = second

/-- The scheme accepts a signature of some data under the bytes of a public key: they are read as a
key, and the check under that key succeeds. -/
def Accepts [SignatureScheme] (publicKey data : Bytes) (signature : FixedList 64 UInt8) : Prop :=
  ∃ key, readKey publicKey = some key ∧ verify key data signature = true

instance [SignatureScheme] (publicKey data : Bytes) (signature : FixedList 64 UInt8) :
    Decidable (Accepts publicKey data signature) :=
  decidable_of_iff ((readKey publicKey).any (fun key => verify key data signature) = true)
    (Option.any_eq_true _ _)

end SignatureScheme

end Transact
