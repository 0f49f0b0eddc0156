import Transact.Bytes

/-!
# Compact lengths

The length of a list is written with seven bits a byte, low bits first, and the high bit of a byte
says that another follows. Lengths go up to 65535, so one to three bytes are enough.

Reading accepts exactly the shortest writing of a length. A zero byte after the first would spell
the same number at greater length and is refused, as is anything past the third byte or above the
limit; an input that ends too soon is told apart from all of these.
-/

namespace Transact.CompactLength

/-- The greatest length that can be written. -/
def maximum : Nat := 65535

/-- The most bytes a length takes. -/
def maximumSize : Nat := 3

/-- Why a length cannot be written or read. -/
inductive Error where
  /-- The input ended where another byte was announced or the first was expected. -/
  | insufficientData
  /-- The third byte announces a fourth. -/
  | tooLong
  /-- The number is above the limit. -/
  | overflow (value : Nat)
  /-- The last byte adds nothing, so a shorter writing exists. -/
  | redundant
deriving DecidableEq

/-- The report of each cause. -/
def Error.report : Error → String
  | .insufficientData => "insufficient data for compact length"
  | .tooLong => s!"compact length encoding is longer than {maximumSize} bytes"
  | .overflow value => s!"compact length {value} does not fit in a u16"
  | .redundant => "compact length has a non-canonical encoding"

/-- The bytes of a length that is within the limit. -/
def groups (length : Nat) : Bytes :=
  if length < 128 then [UInt8.ofNat length]
  else if length < 16384 then [UInt8.ofNat (128 + length % 128), UInt8.ofNat (length / 128)]
  else
    [UInt8.ofNat (128 + length % 128), UInt8.ofNat (128 + length / 128 % 128),
      UInt8.ofNat (length / 16384)]

/-- Write a length. -/
def encode (length : Nat) : Except Error Bytes :=
  if length ≤ maximum then .ok (groups length) else .error (.overflow length)

/-- How many bytes a length takes. One that cannot be written counts as the longest. -/
def encodedSize (length : Nat) : Nat :=
  if length < 128 then 1 else if length < 16384 then 2 else maximumSize

/-- The size of a length is the number of bytes its writing has. -/
theorem length_groups (length : Nat) : (groups length).length = encodedSize length := by
  unfold groups encodedSize maximumSize
  split
  · rfl
  · split <;> rfl

/-- Where a reader stands after a byte. -/
inductive Progress where
  /-- The length is complete. -/
  | done (value : Nat)
  /-- Another byte follows; this is the number so far. -/
  | more (value : Nat)
deriving DecidableEq

/-- Take in the byte at a position, given the number that the bytes before it spell. -/
def visit (position value : Nat) (byte : UInt8) : Except Error Progress :=
  if byte = 0 ∧ position ≠ 0 then .error .redundant
  else if position + 1 ≥ maximumSize ∧ byte ≥ 128 then .error .tooLong
  else
    let total := value + byte.toNat % 128 * Nat.pow 128 position
    if total > maximum then .error (.overflow total)
    else .ok (if byte < 128 then .done total else .more total)

/-- Read on from a position, given the number that the bytes before it spell. -/
def decodeFrom (position value : Nat) : Bytes → Except Error (Nat × Bytes)
  | [] => .error .insufficientData
  | byte :: rest =>
    match visit position value byte with
    | .error fault => .error fault
    | .ok (.done total) => .ok (total, rest)
    | .ok (.more total) => decodeFrom (position + 1) total rest

/-- Read a length off the front of an input, together with the rest of the input. -/
def decode (input : Bytes) : Except Error (Nat × Bytes) := decodeFrom 0 0 input

/-- Read a length from any source of bytes, at most `left` more of them. The source reports its own
faults, such as having no byte left; `refuse` turns a fault of the length into one of those. -/
def gather {σ ε : Type} (next : σ → Except ε (UInt8 × σ)) (refuse : Error → ε) :
    (left position value : Nat) → σ → Except ε (UInt16 × σ)
  | 0, _, _, _ => .error (refuse .tooLong)
  | left + 1, position, value, source =>
    match next source with
    | .error fault => .error fault
    | .ok (byte, rest) =>
      match visit position value byte with
      | .error fault => .error (refuse fault)
      | .ok (.done total) => .ok (UInt16.ofNat total, rest)
      | .ok (.more total) => gather next refuse left (position + 1) total rest

end Transact.CompactLength
