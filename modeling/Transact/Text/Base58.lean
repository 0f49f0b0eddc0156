import Transact.FixedList

/-!
# Base 58 text

Byte strings of a known length are shown as text in base 58. The conversion is done by a converter
that the library is handed. It fills buffers: one of `limit` letters when it writes, one of `size`
bytes when it reads.

This module holds what the library puts around a converter. A writer takes the letters that the
converter has counted off the front of its buffer and checks that they are text. A reader refuses a
text that is longer than the buffer before the converter sees it, and reports the converter's five
faults as two.
-/

namespace Transact.Base58

/-- Why a converter does not read some letters. -/
inductive Fault where
  /-- One of them is not a letter of base 58. -/
  | invalidLetter (letter : UInt8)
  /-- There are too many of them. -/
  | tooLong
  /-- There are too few of them. -/
  | tooShort
  /-- They spell a number that is too large. -/
  | largestTermTooHigh
  /-- They stand for more bytes than are wanted. -/
  | outputTooLong
deriving DecidableEq

/-- A converter between byte strings of `size` bytes and up to `limit` letters. -/
class Converter (size limit : Nat) where
  /-- Write the letters of a byte string into the front of a buffer, and count them. -/
  encode (bytes : FixedList size UInt8) (buffer : FixedList limit UInt8) :
    UInt8 × FixedList limit UInt8
  /-- Read letters into a buffer of bytes. -/
  decode (letters : Bytes) (buffer : FixedList size UInt8) : Except Fault (FixedList size UInt8)

section Writing

variable {size : Nat} (limit : Nat) [Converter size limit]

/-- The letters of a byte string, if the converter counts no more of them than the buffer has. -/
def letters? (bytes : FixedList size UInt8) : Option Bytes :=
  let (count, buffer) := Converter.encode bytes (FixedList.replicate limit 0)
  if count.toNat ≤ limit then some (buffer.toList.take count.toNat) else none

/-- The text of a byte string, if its letters are text. -/
def write? (bytes : FixedList size UInt8) : Option String := do
  let letters ← letters? limit bytes
  String.fromUTF8? ⟨letters.toArray⟩

end Writing

/-- The text that has a character for each letter. -/
def ofLetters (letters : Bytes) : String :=
  String.ofList (letters.map fun letter => Char.ofNat letter.toNat)

section Reading

variable (size limit : Nat) [Converter size limit]

/-- Read the bytes of a text, if it is not longer than the buffer of its letters. -/
def read? (text : String) : Option (Except Fault (FixedList size UInt8)) :=
  if text.utf8ByteSize > limit then none
  else some (Converter.decode limit text.toUTF8.data.toList (FixedList.replicate size 0))

end Reading

/-- Why a text is not the written form of a byte string of the wanted size. -/
inductive DecodeError where
  /-- The text is too long, or it spells something of another size. -/
  | wrongSize
  /-- A character is not one of the alphabet's. -/
  | invalidLetter
deriving DecidableEq

/-- The report of a converter's fault: all of them but one are about the size. -/
def DecodeError.ofFault : Fault → DecodeError
  | .invalidLetter _ => .invalidLetter
  | .tooLong | .tooShort | .largestTermTooHigh | .outputTooLong => .wrongSize

/-- Read a text that is to be exactly `size` bytes. -/
def read (size limit : Nat) [Converter size limit] (text : String) :
    Except DecodeError (FixedList size UInt8) :=
  match read? size limit text with
  | none => .error .wrongSize
  | some outcome => outcome.mapError .ofFault

end Transact.Base58
