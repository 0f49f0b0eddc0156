/-!
# Byte strings

Everything that travels is a list of bytes. This module holds the two operations that every
reader and writer is made of: cutting a known number of bytes off the front of an input, and
writing a number as a known number of bytes, least significant first.

The main statements say that a cut loses nothing (`cut?_eq_some_iff`) and that numbers survive
the trip through bytes in both directions (`toNat_ofNat`, `ofNat_toNat`).
-/

namespace Transact

/-- A string of bytes, first byte first. -/
abbrev Bytes := List UInt8

namespace Bytes

/-- Cut `count` bytes off the front. There is no answer when the input is shorter than that, so a
reader never sees a partial item. -/
def cut? (count : Nat) (input : Bytes) : Option (Bytes × Bytes) :=
  let front := input.take count
  if front.length = count then some (front, input.drop count) else none

/-- A cut succeeds exactly on the inputs that are the front followed by the rest. -/
theorem cut?_eq_some_iff (count : Nat) (input front rest : Bytes) :
    cut? count input = some (front, rest) ↔ front.length = count ∧ input = front ++ rest := by
  unfold cut?
  constructor
  · intro succeeded
    by_cases enough : (input.take count).length = count
    · simp only [enough, if_true, Option.some.injEq, Prod.mk.injEq] at succeeded
      obtain ⟨rfl, rfl⟩ := succeeded
      exact ⟨enough, (List.take_append_drop count input).symm⟩
    · rw [if_neg enough] at succeeded
      exact absurd succeeded (by simp)
  · rintro ⟨rfl, rfl⟩
    simp

/-- A cut fails exactly when the input is too short. -/
theorem cut?_eq_none_iff (count : Nat) (input : Bytes) :
    cut? count input = none ↔ input.length < count := by
  simp only [cut?, List.length_take]
  split
  · simp; omega
  · simp; omega

/-- The `width` low bytes of a number, least significant first. -/
def ofNat : (width : Nat) → (value : Nat) → Bytes
  | 0, _ => []
  | width + 1, value => UInt8.ofNat value :: ofNat width (value / 256)

/-- The number whose bytes these are, least significant first. -/
def toNat : Bytes → Nat
  | [] => 0
  | byte :: rest => byte.toNat + 256 * toNat rest

@[simp] theorem length_ofNat (width value : Nat) : (ofNat width value).length = width := by
  induction width generalizing value with
  | zero => rfl
  | succ width inductionHypothesis => simp [ofNat, inductionHypothesis]

/-- A byte string of `n` bytes stands for a number below `256 ^ n`. -/
theorem toNat_lt (bytes : Bytes) : toNat bytes < Nat.pow 256 bytes.length := by
  induction bytes with
  | nil => simp [toNat]
  | cons byte rest inductionHypothesis =>
    have bounded := byte.toNat_lt
    simp only [toNat, List.length_cons, Nat.pow_eq, Nat.pow_succ] at *
    omega

/-- Reading back a written number gives what the width could hold of it. -/
theorem toNat_ofNat (width value : Nat) :
    toNat (ofNat width value) = value % Nat.pow 256 width := by
  induction width generalizing value with
  | zero => simp [ofNat, toNat, Nat.mod_one]
  | succ width inductionHypothesis =>
    have low : (UInt8.ofNat value).toNat = value % 256 := by simp
    simp only [ofNat, toNat, inductionHypothesis, low, Nat.pow_eq]
    rw [Nat.pow_succ, Nat.mul_comm (256 ^ width) 256, Nat.mod_mul]

/-- Writing the number that bytes stand for, at their own width, gives the bytes back. -/
theorem ofNat_toNat (bytes : Bytes) : ofNat bytes.length (toNat bytes) = bytes := by
  induction bytes with
  | nil => rfl
  | cons byte rest inductionHypothesis =>
    have bounded := byte.toNat_lt
    have quotient : (byte.toNat + 256 * toNat rest) / 256 = toNat rest := by omega
    have low : UInt8.ofNat (byte.toNat + 256 * toNat rest) = byte := by
      apply UInt8.toNat_inj.mp
      have wrapped : (UInt8.ofNat (byte.toNat + 256 * toNat rest)).toNat =
          (byte.toNat + 256 * toNat rest) % 256 := by simp
      omega
    simp [ofNat, toNat, quotient, low, inductionHypothesis]

end Bytes

end Transact
