import Transact.Text.Base58

/-!
# Hashes

A hash is 32 bytes, shown in base 58. A message carries one, of a recent block, which limits how
long the message stays valid.
-/

namespace Transact

/-- A 32-byte digest. -/
structure Hash where
  /-- Its 32 bytes. -/
  bytes : FixedList 32 UInt8
deriving DecidableEq

namespace Hash

/-- The longest text of 32 bytes. -/
abbrev maxTextLength : Nat := 44

/-- The hash of 32 zero bytes, which stands for "none yet". -/
def zero : Hash := ⟨FixedList.replicate 32 0⟩

instance : Inhabited Hash := ⟨zero⟩

/-- The bytes as a plain byte string. -/
def toBytes (hash : Hash) : Bytes := hash.bytes.toList

@[simp] theorem length_toBytes (hash : Hash) : hash.toBytes.length = 32 :=
  hash.bytes.length_toList

/-- Admit exactly 32 bytes. -/
def ofBytes (bytes : Bytes) : Except WrongLength Hash :=
  (FixedList.ofList 32 bytes).map Hash.mk

section Text

variable [Base58.Converter 32 44]

/-- The base 58 text, if the converter makes letters that fit. -/
def text? (hash : Hash) : Option String := Base58.write? maxTextLength hash.bytes

/-- The base 58 text, which is empty where there is none. -/
def text (hash : Hash) : String := hash.text?.getD ""

instance : ToString Hash := ⟨text⟩

/-- Read the base 58 text. -/
def parse (text : String) : Except Base58.DecodeError Hash :=
  (Base58.read 32 maxTextLength text).map Hash.mk

end Text

/-- The report of a text that is no hash. -/
def parseReport : Base58.DecodeError → String
  | .wrongSize => "string decoded to wrong size for hash"
  | .invalidLetter => "failed to decoded string to hash"

/-- The hash whose first eight bytes spell a number, least significant first, before 24 zero
bytes. -/
def numbered (number : Nat) : Hash :=
  ⟨(FixedList.ofNat 8 number).append (FixedList.replicate 24 0)⟩

/-- Draw the next hash from a counter, which never gives the same one twice until it wraps. -/
def unique (counter : UInt64) : Hash × UInt64 := (numbered counter.toNat, counter + 1)

end Hash

end Transact
