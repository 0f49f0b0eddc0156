import Transact.SignatureScheme
import Transact.Text.Base58

/-!
# Signatures

A signature is 64 bytes, shown in base 58. The zero signature fills a slot that nobody has signed.
Whether a signature is valid is for the signature scheme to say.
-/

namespace Transact

/-- A 64-byte signature. -/
structure Signature where
  /-- Its 64 bytes. -/
  bytes : FixedList 64 UInt8
deriving DecidableEq

namespace Signature

/-- The longest text of 64 bytes. -/
abbrev maxTextLength : Nat := 88

/-- The signature of 64 zero bytes, which marks an empty slot. -/
def zero : Signature := ⟨FixedList.replicate 64 0⟩

instance : Inhabited Signature := ⟨zero⟩

/-- The bytes as a plain byte string. -/
def toBytes (signature : Signature) : Bytes := signature.bytes.toList

@[simp] theorem length_toBytes (signature : Signature) : signature.toBytes.length = 64 :=
  signature.bytes.length_toList

/-- Admit exactly 64 bytes. -/
def ofBytes (bytes : Bytes) : Except WrongLength Signature :=
  (FixedList.ofList 64 bytes).map Signature.mk

section Text

variable [Base58.Converter 64 88]

/-- The base 58 text, if the converter makes letters that fit. -/
def text? (signature : Signature) : Option String := Base58.write? maxTextLength signature.bytes

/-- The base 58 text, which is empty where there is none. -/
def text (signature : Signature) : String := signature.text?.getD ""

instance : ToString Signature := ⟨text⟩

/-- Read the base 58 text. -/
def parse (text : String) : Except Base58.DecodeError Signature :=
  (Base58.read 64 maxTextLength text).map Signature.mk

end Text

/-- The report of a text that is no signature. -/
def parseReport : Base58.DecodeError → String
  | .wrongSize => "string decoded to wrong size for signature"
  | .invalidLetter => "failed to decode string to signature"

/-- Check a signature of a message under the bytes of a public key. Under bytes that are no public
key, nothing is valid. -/
def verify [SignatureScheme] (signature : Signature) (publicKey message : Bytes) : Bool :=
  match SignatureScheme.readKey publicKey with
  | some key => SignatureScheme.verify key message signature.bytes
  | none => false

/-- A signature is valid exactly when the scheme accepts it. -/
theorem verify_eq_true_iff [SignatureScheme] (signature : Signature) (publicKey message : Bytes) :
    signature.verify publicKey message = true ↔
      SignatureScheme.Accepts publicKey message signature.bytes := by
  unfold verify SignatureScheme.Accepts
  cases SignatureScheme.readKey publicKey with
  | some key => simp
  | none => simp

end Signature

end Transact
