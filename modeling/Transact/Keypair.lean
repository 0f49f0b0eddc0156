import Transact.Address
import Transact.Signature
import Transact.Text.Hex

/-!
# Key pairs

A key pair is a signing key of the signature scheme. Its byte form is the secret followed by the
public key, so it can disagree with itself and is checked by the scheme on reading.
-/

namespace Transact

/-- Why a key pair cannot be read. -/
inductive KeypairError where
  /-- There are not 64 bytes but so many. -/
  | wrongSize (actual : Nat)
  /-- The text is not that of 64 bytes in base 58. -/
  | invalidBase58
  /-- The text is not hexadecimal. -/
  | invalidHex
  /-- The second half is not the public key of the first. -/
  | publicKeyMismatch
deriving DecidableEq

/-- The report of each fault. -/
def KeypairError.report : KeypairError → String
  | .wrongSize actual => s!"keypair must be 64 bytes, got {actual}"
  | .invalidBase58 => "failed to base58 decode keypair"
  | .invalidHex => "failed to hex decode keypair"
  | .publicKeyMismatch => "public key does not match secret key"

/-- A secret with its public key. -/
structure Keypair [SignatureScheme] where
  /-- Both, as the scheme holds them. -/
  key : SignatureScheme.SigningKey

namespace Keypair

variable [SignatureScheme]

/-- The longest text of 64 bytes. -/
abbrev maxTextLength : Nat := 88

/-- The key pair of a secret. -/
def ofSecret (secret : FixedList 32 UInt8) : Keypair := ⟨SignatureScheme.ofSecret secret⟩

/-- The 32 bytes that nobody else knows. -/
def secret (keypair : Keypair) : FixedList 32 UInt8 := SignatureScheme.secret keypair.key

/-- The public key, which is also an address. -/
def publicKey (keypair : Keypair) : Address :=
  ⟨SignatureScheme.keyBytes (SignatureScheme.verifyingKey keypair.key)⟩

/-- The secret and the public key. -/
def bytes (keypair : Keypair) : FixedList 64 UInt8 := SignatureScheme.toHalves keypair.key

/-- The bytes as a plain byte string. -/
def toBytes (keypair : Keypair) : Bytes := keypair.bytes.toList

/-- Read a secret and the public key that follows from it. -/
def ofBytes (bytes : Bytes) : Except KeypairError Keypair :=
  match FixedList.ofList 64 bytes with
  | .error mismatch => .error (.wrongSize mismatch.actual)
  | .ok halves =>
    match SignatureScheme.ofHalves halves with
    | some key => .ok ⟨key⟩
    | none => .error .publicKeyMismatch

section Text

variable [Base58.Converter 64 88]

/-- The base 58 text of the 64 bytes, if the converter makes no more letters than fit. Each of them
is made a character, so they need not be text already. -/
def text? (keypair : Keypair) : Option String :=
  (Base58.letters? maxTextLength keypair.bytes).map Base58.ofLetters

/-- The base 58 text of the 64 bytes, which is empty where there is none. -/
def text (keypair : Keypair) : String := keypair.text?.getD ""

/-- Read the base 58 text of the 64 bytes. Whatever is wrong with the text is the same fault. -/
def ofBase58 (text : String) : Except KeypairError Keypair :=
  match Base58.read? 64 maxTextLength text with
  | some (.ok bytes) => ofBytes bytes.toList
  | _ => .error .invalidBase58

end Text

/-- Read the 64 bytes in hexadecimal. -/
def ofHex (text : String) : Except KeypairError Keypair :=
  match Hex.decode text with
  | none => .error .invalidHex
  | some bytes => ofBytes bytes

/-- Sign a message. -/
def sign (keypair : Keypair) (message : Bytes) : Signature :=
  ⟨SignatureScheme.sign keypair.key message⟩

end Keypair

end Transact
