import Transact.Ed25519.Point
import Transact.Sha512
import Transact.Signature

/-!
# Signing and checking on the curve

This is the signature scheme that the library is run with. A secret is 32 bytes. Its digest yields a
factor, whose multiple of the base point is the public key, and a nonce key, which makes signing
deterministic. A signature is a point `R` and a number `s` with `s·B = R + k·A`, where `k` is the
digest of `R`, the public key and the message.

Checking is strict: `s` must be reduced, neither `R` nor the public key may be of small order, and
the bytes of `R` must be those of `s·B - k·A` exactly.
-/

namespace Transact.Ed25519

/-- The number of multiples of the base point. -/
def order : Nat := Nat.pow 2 252 + 27742317777372353535851937790883648493

/-- The factor in the first half of a secret's digest: a multiple of eight with bit 254 as its
highest. -/
def clamp (number : Nat) : Nat := Nat.pow 2 254 + number % Nat.pow 2 254 / 8 * 8

/-- What a secret is expanded to. -/
structure ExpandedSecret where
  /-- The factor of the public key. -/
  factor : Nat
  /-- The key of the nonces. -/
  nonceKey : Bytes

/-- Expand a secret. -/
def expand (secret : FixedList 32 UInt8) : ExpandedSecret :=
  let digest := Sha512.digest secret.toList
  ⟨clamp (Bytes.toNat (digest.take 32)), digest.drop 32⟩

/-- A public key: the bytes of a point with the point. -/
structure VerifyingKey where
  /-- The bytes. -/
  bytes : FixedList 32 UInt8
  /-- The point that they stand for. -/
  point : Point

/-- The public key of a secret. -/
def deriveKey (secret : FixedList 32 UInt8) : VerifyingKey :=
  let point := Point.base.scale 255 (expand secret).factor
  ⟨point.encode, point⟩

/-- Read a public key, which must be the bytes of a point. -/
def readKey (bytes : Bytes) : Option VerifyingKey :=
  match FixedList.ofList 32 bytes with
  | .error _ => none
  | .ok key => (Point.decode key).map (VerifyingKey.mk key)

/-- A secret with its public key. -/
structure SigningKey where
  /-- The secret. -/
  secret : FixedList 32 UInt8
  /-- The public key. -/
  verifyingKey : VerifyingKey
  /-- The public key is the one that follows from the secret. -/
  verifyingKey_eq : verifyingKey = deriveKey secret

/-- The signing key of a secret. -/
def SigningKey.ofSecret (secret : FixedList 32 UInt8) : SigningKey :=
  ⟨secret, deriveKey secret, rfl⟩

/-- Read a secret before its public key, which must be the one that follows from it. -/
def SigningKey.ofHalves (halves : FixedList (32 + 32) UInt8) : Option SigningKey :=
  let key := SigningKey.ofSecret halves.front
  if key.verifyingKey.bytes = halves.back then some key else none

/-- Every signing key is that of its secret. -/
theorem SigningKey.ofSecret_secret (key : SigningKey) : SigningKey.ofSecret key.secret = key := by
  obtain ⟨secret, verifyingKey, rfl⟩ := key
  rfl

/-- The signing key of a secret is read from the secret before its public key, and from nothing
else. -/
theorem SigningKey.ofHalves_eq_some_iff (first second : FixedList 32 UInt8) (key : SigningKey) :
    SigningKey.ofHalves (first.append second) = some key ↔
      SigningKey.ofSecret first = key ∧ key.verifyingKey.bytes = second := by
  simp only [ofHalves, FixedList.front_append, FixedList.back_append]
  constructor
  · intro accepted
    split at accepted
    · rename_i matching
      cases accepted
      exact ⟨rfl, matching⟩
    · cases accepted
  · rintro ⟨rfl, matching⟩
    rw [if_pos matching]

/-- A digest as a number modulo the order. -/
def digestNumber (message : Bytes) : Nat := Bytes.toNat (Sha512.digest message) % order

/-- The number that ties a signature's point and the public key to the message. -/
def challenge (point publicKey : FixedList 32 UInt8) (message : Bytes) : Nat :=
  digestNumber (point.toList ++ (publicKey.toList ++ message))

/-- Sign a message. -/
def sign (key : SigningKey) (message : Bytes) : FixedList (32 + 32) UInt8 :=
  let expanded := expand key.secret
  let nonce := digestNumber (expanded.nonceKey ++ message)
  let point := (Point.base.scale 255 nonce).encode
  let number := (challenge point key.verifyingKey.bytes message * expanded.factor + nonce) % order
  point.append (FixedList.ofNat 32 number)

/-- Check a signature of a message under a public key. -/
def verify (key : VerifyingKey) (message : Bytes) (signature : FixedList (32 + 32) UInt8) : Bool :=
  match Point.decode signature.front with
  | none => false
  | some point =>
    let number := Bytes.toNat signature.back.toList
    let factor := challenge signature.front key.bytes message
    decide (number < order) && !point.isSmall && !key.point.isSmall &&
      ((Point.base.scale 255 number).add (key.point.negate.scale 255 factor)).encode ==
        signature.front

/-- The scheme that the library is run with. -/
instance (priority := low) scheme : SignatureScheme where
  SigningKey := SigningKey
  VerifyingKey := VerifyingKey
  ofSecret := SigningKey.ofSecret
  ofHalves := SigningKey.ofHalves
  toHalves key := (key.secret.append key.verifyingKey.bytes : FixedList (32 + 32) UInt8)
  secret := SigningKey.secret
  verifyingKey := SigningKey.verifyingKey
  sign := sign
  readKey := readKey
  keyBytes := VerifyingKey.bytes
  verify := verify

/-- The scheme derives keys from secrets alone, as a key is kept with the proof that it is derived
from its secret. -/
theorem derivesKeys : SignatureScheme.DerivesKeys where
  secret_ofSecret _ := rfl
  ofSecret_secret := SigningKey.ofSecret_secret
  toHalves_eq _ := rfl
  ofHalves_eq_some_iff := SigningKey.ofHalves_eq_some_iff

/-- Check a signature of a message under the bytes of a public key. -/
def verifyBytes (publicKey : Bytes) (message : Bytes) (signature : Signature) : Bool :=
  signature.verify publicKey message

end Transact.Ed25519
