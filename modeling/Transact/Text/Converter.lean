import Transact.Text.Base58

/-!
# A converter to base 58

This is the converter that the library is run with. A byte string is written as the base 58 digits
of the number it spells, most significant byte first, with one leading `1` for each leading zero
byte. The digit zero is the letter `1`, and the letters that are easily confused (`0`, `O`, `I`,
`l`) are not used.

Reading is for a known number of bytes and accepts only the letters that writing produces: the
leading `1`s must match the leading zero bytes one for one, so every value has one text.
-/

namespace Transact.Base58

/-- The letters of the digits 0 to 57, in order, a byte each. -/
def alphabet : Bytes :=
  ['1', '2', '3', '4', '5', '6', '7', '8', '9',
   'A', 'B', 'C', 'D', 'E', 'F', 'G', 'H', 'J', 'K', 'L', 'M', 'N', 'P', 'Q', 'R', 'S', 'T', 'U',
   'V', 'W', 'X', 'Y', 'Z',
   'a', 'b', 'c', 'd', 'e', 'f', 'g', 'h', 'i', 'j', 'k', 'm', 'n', 'o', 'p', 'q', 'r', 's', 't',
   'u', 'v', 'w', 'x', 'y', 'z'].map Char.toUInt8

/-- The letter of a digit. Digits are below 58, so the default is never read. -/
def letter (digit : Nat) : UInt8 := alphabet.getD digit 0

/-- The digit of a letter; a byte that is not one of the alphabet's is a fault. -/
def readDigit (letter : UInt8) : Except Fault Nat :=
  match alphabet.idxOf? letter with
  | some digit => .ok digit
  | none => .error (.invalidLetter letter)

/-- The `width` low digits of a number in base 58, least significant first. -/
def digits : (width : Nat) → (value : Nat) → List Nat
  | 0, _ => []
  | width + 1, value => value % 58 :: digits width (value / 58)

/-- The number that digits spell, most significant first. -/
def value (digits : List Nat) : Nat := digits.foldl (fun high digit => 58 * high + digit) 0

/-- How many items at the front of a list are zero. -/
def leadingZeros {α : Type} [BEq α] [OfNat α 0] (items : List α) : Nat :=
  (items.takeWhile (· == 0)).length

/-- The letters of a byte string. Two digits hold more than one byte, so twice the number of bytes
is always room enough for the number; the zeros in front of it are dropped and the zero bytes put
back. -/
def encode (bytes : Bytes) : Bytes :=
  let padded := (digits (2 * bytes.length) (Bytes.toNat bytes.reverse)).reverse
  let significant := padded.dropWhile (· == 0)
  (List.replicate (leadingZeros bytes) 0 ++ significant).map letter

/-- Read the letters of exactly `size` bytes. A foreign letter is reported in preference to a wrong
number. -/
def decode (size : Nat) (letters : Bytes) : Except Fault (FixedList size UInt8) := do
  let spelled ← letters.mapM readDigit
  let number := value spelled
  let bytes := (FixedList.ofNat size number).reverse
  if number ≥ Nat.pow 256 size then throw .largestTermTooHigh
  if leadingZeros spelled < leadingZeros bytes.toList then throw .tooShort
  if leadingZeros spelled > leadingZeros bytes.toList then throw .outputTooLong
  return bytes

/-- Put letters at the front of a buffer. Letters that it has no room for are lost. -/
def fill {limit : Nat} (letters : Bytes) (buffer : FixedList limit UInt8) :
    FixedList limit UInt8 :=
  ⟨(letters ++ buffer.toList.drop letters.length).take limit, by
    rw [List.length_take, List.length_append, List.length_drop, buffer.length_toList]
    omega⟩

/-- The converter that the library is run with. -/
instance (priority := low) converter (size limit : Nat) : Converter size limit where
  encode bytes buffer :=
    let letters := encode bytes.toList
    (UInt8.ofNat letters.length, fill letters buffer)
  decode letters _ := decode size letters

end Transact.Base58
