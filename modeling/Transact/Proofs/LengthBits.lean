import Mathlib.Data.Nat.Bitwise
import Transact.CompactLength.Bits
import Transact.Proofs.CanonicalReading

/-!
# Masks and shifts as arithmetic

A compact length is written and read with masks and shifts on machine words, or with remainders and
quotients of numbers; these are the same (`CompactLength.Bits.encode_eq`,
`CompactLength.Bits.decode_eq`). A mask of the low bits is a remainder and a shift a quotient. The
bits of two numbers are joined without a carry where one is a multiple of a power of two and the
other is below it, so joining is adding: this is why reading keeps a number below `128 ^ position`
before the byte at a position.
-/

namespace Transact.CompactLength.Bits

/-- Bits are joined by adding where the first number ends before the second begins. -/
theorem or_mul_two_pow {value width : Nat} (below : value < 2 ^ width) (low : Nat) :
    value ||| low * 2 ^ width = value + low * 2 ^ width := by
  rw [Nat.or_comm, Nat.mul_comm, ← Nat.two_pow_add_eq_or_of_lt below, Nat.add_comm]

section Writing

variable (number : UInt16)

/-- The low bits of a number are its remainder. -/
theorem toNat_low : (number &&& 0x7f).toUInt8.toNat = number.toNat % 128 := by
  have masked : (number &&& 0x7f).toNat = number.toNat % 128 := by
    rw [UInt16.toNat_and]
    exact Nat.and_two_pow_sub_one_eq_mod number.toNat 7
  rw [UInt16.toNat_toUInt8, masked]
  omega

/-- The bits that are left are the quotient. -/
theorem toNat_left : (number >>> 7).toNat = number.toNat / 128 := by
  rw [UInt16.toNat_shiftRight]
  exact Nat.shiftRight_eq_div_pow number.toNat 7

/-- Setting the high bit of a byte that holds seven bits adds to it. -/
theorem toNat_marked : ((number &&& 0x7f).toUInt8 ||| 0x80).toNat = 128 + number.toNat % 128 := by
  have low : number.toNat % 128 < 2 ^ 7 := Nat.mod_lt number.toNat (by decide)
  have joined := or_mul_two_pow low 1
  rw [UInt8.toNat_or, toNat_low]
  exact joined.trans (Nat.add_comm _ _)

/-- One byte of a writing: the last if the number has no more than seven bits. -/
theorem groups_succ (slots : Nat) :
    groups (slots + 1) number =
      if number.toNat < 128 then [UInt8.ofNat number.toNat]
      else UInt8.ofNat (128 + number.toNat % 128) :: groups slots (number >>> 7) := by
  have last : number >>> 7 = 0 ↔ number.toNat < 128 := by
    rw [← UInt16.toNat_inj, toNat_left]
    change number.toNat / 128 = 0 ↔ _
    omega
  simp only [groups, last]
  split
  · rename_i small
    rw [← Nat.mod_eq_of_lt small, ← toNat_low, UInt8.ofNat_toNat]
  · rw [← toNat_marked, UInt8.ofNat_toNat]

/-- The bits of a number fill the bytes that its remainders and quotients do. Three bytes hold all
of its 16 bits, so none is ever cut off. -/
theorem groups_eq : groups maximumSize number = CompactLength.groups number.toNat := by
  have bounded := number.toNat_lt
  have second := toNat_left number
  have third := toNat_left (number >>> 7)
  rw [maximumSize, groups_succ, CompactLength.groups]
  split
  · rfl
  · rw [groups_succ, second]
    split
    · rw [if_pos (by omega)]
    · rw [if_neg (by omega), groups_succ, third, if_pos (by omega), second, Nat.div_div_eq_div_mul]

end Writing

/-- Lengths are written with masks and shifts as they are with remainders and quotients. -/
theorem encode_eq (length : Nat) : encode length = CompactLength.encode length := by
  have fits : length < UInt16.size ↔ length ≤ maximum := Nat.lt_succ_iff
  simp only [encode, CompactLength.encode, fits]
  split
  · rename_i within
    have whole : (UInt16.ofNat length).toNat = length := by
      rw [UInt16.toNat_ofNat']
      exact Nat.mod_eq_of_lt (fits.mpr within)
    rw [groups_eq, whole]
  · rfl

section Reading

variable {position : Nat} {value : UInt16} (byte : UInt8)

/-- The low bits of a byte are its remainder. -/
theorem toNat_payload : (byte.toUInt32 &&& 0x7f).toNat = byte.toNat % 128 := by
  rw [UInt32.toNat_and, UInt8.toNat_toUInt32]
  exact Nat.and_two_pow_sub_one_eq_mod byte.toNat 7

/-- The high bit of a byte is clear when the byte is below 128. -/
theorem mark_eq_zero_iff : byte.toUInt32 &&& 0x80 = 0 ↔ byte < 128 := by
  have bounded := byte.toNat_lt
  have mark : (byte.toUInt32 &&& 0x80).toNat = (byte.toNat.testBit 7).toNat * 2 ^ 7 := by
    rw [UInt32.toNat_and, UInt8.toNat_toUInt32]
    exact Nat.and_two_pow byte.toNat 7
  rw [← UInt32.toNat_inj, mark, UInt8.lt_iff_toNat_lt, Nat.testBit_eq_decide_div_mod_eq]
  by_cases high : byte.toNat / 2 ^ 7 % 2 = 1
  · simp only [high, decide_true]
    change 128 = 0 ↔ byte.toNat < 128
    omega
  · simp only [high, decide_false]
    change 0 = 0 ↔ byte.toNat < 128
    omega

/-- A byte adds its low bits, each position seven bits higher than the one before. -/
theorem toNat_total (early : position < maximumSize) (below : value.toNat < 128 ^ position) :
    (value.toUInt32 ||| (byte.toUInt32 &&& 0x7f) <<< UInt32.ofNat (7 * position)).toNat =
      value.toNat + byte.toNat % 128 * 128 ^ position := by
  have early : position < 3 := early
  have power : 128 ^ position = 2 ^ (7 * position) := by rw [Nat.pow_mul]
  have narrow : byte.toNat % 128 * 2 ^ (7 * position) < 2 ^ 32 := by
    have small : byte.toNat % 128 < 128 := Nat.mod_lt _ (by decide)
    have scale : 2 ^ (7 * position) ≤ 2 ^ 14 := Nat.pow_le_pow_right (by decide) (by omega)
    calc byte.toNat % 128 * 2 ^ (7 * position)
        ≤ 128 * 2 ^ 14 := Nat.mul_le_mul (Nat.le_of_lt small) scale
      _ < 2 ^ 32 := by decide
  have shift : (UInt32.ofNat (7 * position)).toNat % 32 = 7 * position := by
    rw [UInt32.toNat_ofNat']
    omega
  rw [power] at below ⊢
  rw [UInt32.toNat_or, UInt16.toNat_toUInt32, UInt32.toNat_shiftLeft, shift, toNat_payload,
    Nat.shiftLeft_eq, Nat.mod_eq_of_lt narrow, or_mul_two_pow below]

/-- Masks and shifts take in a byte as remainders and products do. -/
theorem visit_eq (early : position < maximumSize) (below : value.toNat < 128 ^ position) :
    visit position value byte = CompactLength.visit position value.toNat byte := by
  have late : (position ≥ maximumSize ∨ position = maximumSize - 1 ∧ ¬byte < 128) ↔
      position + 1 ≥ maximumSize ∧ byte ≥ 128 := by
    have early : position < 3 := early
    change (position ≥ 3 ∨ position = 2 ∧ _) ↔ position + 1 ≥ 3 ∧ _
    rw [UInt8.not_lt]
    constructor
    · rintro (beyond | ⟨third, high⟩)
      · omega
      · exact ⟨by omega, high⟩
    · rintro ⟨third, high⟩
      exact Or.inr ⟨by omega, high⟩
  unfold visit CompactLength.visit
  simp only [mark_eq_zero_iff, toNat_total byte early below, late, Nat.pow_eq, ge_iff_le, gt_iff_lt]
  rfl

end Reading

/-- The number so far stays below the place of the next byte. -/
theorem lt_of_visit_more {position value total : Nat} {byte : UInt8}
    (below : value < 128 ^ position)
    (visited : CompactLength.visit position value byte = .ok (.more total)) :
    (UInt16.ofNat total).toNat = total ∧ total < 128 ^ (position + 1) := by
  obtain ⟨_, _, total_eq, within⟩ := eq_of_visit_more visited
  constructor
  · rw [UInt16.toNat_ofNat']
    exact Nat.mod_eq_of_lt (Nat.lt_succ_of_le within)
  · have small : byte.toNat % 128 ≤ 127 := Nat.le_of_lt_succ (Nat.mod_lt _ (by decide))
    calc total
        = value + byte.toNat % 128 * 128 ^ position := total_eq
      _ < 128 ^ position + 127 * 128 ^ position :=
        Nat.add_lt_add_of_lt_of_le below (Nat.mul_le_mul_right _ small)
      _ = 128 ^ (position + 1) := by rw [Nat.pow_succ]; omega

/-- A length takes at least one byte. -/
theorem length_lt_of_decodeFrom {position value total : Nat} {input rest : Bytes}
    (decoded : CompactLength.decodeFrom position value input = .ok (total, rest)) :
    rest.length < input.length := by
  induction input generalizing position value with
  | nil => cases decoded
  | cons byte others inductionHypothesis =>
    obtain ⟨_, _, same, ⟨_, rfl⟩ | ⟨middle, _, continued⟩⟩ := decodeFrom_eq_ok decoded
    · cases same
      exact Nat.lt_succ_self _
    · cases same
      exact Nat.lt_succ_of_lt (inductionHypothesis continued)

/-- Reading on with masks and shifts is reading on with arithmetic, and counts what it takes.

The induction is on the bytes that may still be looked at. They do not run out before the length
ends, as no third byte announces another. -/
theorem decodeFrom_eq {left position : Nat} (allowed : position + left = maximumSize)
    (some_left : 0 < left) {value : UInt16} (below : value.toNat < 128 ^ position)
    (input : Bytes) :
    decodeFrom left position value input =
      (CompactLength.decodeFrom position value.toNat input).map
        fun (total, rest) => (total, position + (input.length - rest.length)) := by
  induction left generalizing position value input with
  | zero => omega
  | succ left inductionHypothesis =>
    cases input with
    | nil => rfl
    | cons byte others =>
      rw [decodeFrom, CompactLength.decodeFrom, visit_eq byte (by omega) below]
      cases visited : CompactLength.visit position value.toNat byte with
      | error fault => rfl
      | ok progress =>
        cases progress with
        | done total =>
          have single : (byte :: others).length - others.length = 1 := by simp
          simp only [Except.map, single]
        | more total =>
          obtain ⟨_, early, _⟩ := eq_of_visit_more visited
          obtain ⟨stands, next⟩ := lt_of_visit_more below visited
          dsimp only
          rw [inductionHypothesis (by omega) (by omega) (by rwa [stands]), stands]
          cases decoded : CompactLength.decodeFrom (position + 1) total others with
          | error fault => rfl
          | ok answer =>
            obtain ⟨number, rest⟩ := answer
            have shorter := length_lt_of_decodeFrom decoded
            have counted : position + 1 + (others.length - rest.length) =
                position + ((byte :: others).length - rest.length) := by
              rw [List.length_cons]
              omega
            simp only [Except.map, counted]

/-- Lengths are read with masks and shifts as they are with arithmetic. -/
theorem decode_eq (input : Bytes) : decode input = Reader.counted CompactLength.decode input := by
  have allowed : 0 + maximumSize = maximumSize := rfl
  have below : (0 : UInt16).toNat < 128 ^ 0 := by decide
  rw [decode, decodeFrom_eq allowed (by decide) below, Reader.counted, CompactLength.decode]
  change (CompactLength.decodeFrom 0 0 input).map _ = _
  cases CompactLength.decodeFrom 0 0 input with
  | error fault => rfl
  | ok answer => simp only [Except.map, Nat.zero_add]

end Transact.CompactLength.Bits
