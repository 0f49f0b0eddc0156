import Transact.CompactLength

/-!
# Compact lengths bit by bit

The bytes of a compact length hold seven bits of the number each, so they can be written and read
with masks and shifts on machine words, without any division. Writing fills at most three bytes;
reading looks at no more than three. The words are wide enough for every number that can come up: a
length has 16 bits, and what three bytes spell has 21.
-/

namespace Transact.CompactLength.Bits

/-- Put the bits of a number into at most `slots` bytes, the low bits first. The high bit of a byte
is set as long as bits are left. -/
def groups : (slots : Nat) → (number : UInt16) → Bytes
  | 0, _ => []
  | slots + 1, number =>
    let low := (number &&& 0x7f).toUInt8
    let left := number >>> 7
    if left = 0 then [low] else (low ||| 0x80) :: groups slots left

/-- Write a length, which must have 16 bits. -/
def encode (length : Nat) : Except Error Bytes :=
  if length < UInt16.size then .ok (groups maximumSize (UInt16.ofNat length))
  else .error (.overflow length)

/-- Take in the byte at a position: its low bits are shifted behind the bits of the bytes before
it. -/
def visit (position : Nat) (value : UInt16) (byte : UInt8) : Except Error Progress :=
  if byte = 0 ∧ position ≠ 0 then .error .redundant
  else
    let low := byte.toUInt32 &&& 0x7f
    let ends := byte.toUInt32 &&& 0x80 = 0
    if position ≥ maximumSize ∨ position = maximumSize - 1 ∧ ¬ends then .error .tooLong
    else
      let total := value.toUInt32 ||| low <<< UInt32.ofNat (7 * position)
      if total.toNat ≥ UInt16.size then .error (.overflow total.toNat)
      else .ok (if ends then .done total.toNat else .more total.toNat)

/-- Read on from a position, looking at no more than `left` bytes, and count the bytes of the
length. -/
def decodeFrom : (left position : Nat) → (value : UInt16) → Bytes → Except Error (Nat × Nat)
  | 0, _, _, _ => .error .insufficientData
  | _ + 1, _, _, [] => .error .insufficientData
  | left + 1, position, value, byte :: rest =>
    match visit position value byte with
    | .error fault => .error fault
    | .ok (.done total) => .ok (total, position + 1)
    | .ok (.more total) => decodeFrom left (position + 1) (UInt16.ofNat total) rest

/-- Read a length off the front of an input and count its bytes. -/
def decode (input : Bytes) : Except Error (Nat × Nat) := decodeFrom maximumSize 0 0 input

end Transact.CompactLength.Bits
