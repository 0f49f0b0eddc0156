import Mathlib.Data.Nat.Digits.Lemmas
import Transact.Text.Converter

/-!
# Numbers spelled in two bases

A byte string and a list of base 58 digits can stand for the same number, and a number alone says
nothing of the zeros in front of it. `Spells` is the relation between the two that leaves nothing
open: the same number, most significant item first, behind as many zeros.

The digits of a byte string are then determined (`spells_iff`), there are no more of them than the
largest number of that many bytes needs (`length_spelling_le`), and they are what writing computes
(`encode_eq`). All of it is arithmetic on lists; no letter occurs.
-/

namespace Transact.Base58

/-- Digits spell a byte string: they are digits of base 58, both lists stand for one number, most
significant item first, and both start with as many zeros. -/
structure Spells (spelled : List Nat) (bytes : Bytes) : Prop where
  /-- Every item is a digit. -/
  below : ∀ digit ∈ spelled, digit < 58
  /-- Both stand for the same number. -/
  number : Nat.ofDigits 58 spelled.reverse = Bytes.toNat bytes.reverse
  /-- There is one leading digit zero for each leading zero byte. -/
  zeros : leadingZeros spelled = leadingZeros bytes

/-- The digits of a byte string: one zero for each leading zero byte, then the number. -/
def spelling (bytes : Bytes) : List Nat :=
  List.replicate (leadingZeros bytes) 0 ++ (Nat.digits 58 (Bytes.toNat bytes.reverse)).reverse

section LeadingZeros

variable {α : Type} [BEq α] [LawfulBEq α] [OfNat α 0]

/-- A zero in front is one more. -/
@[simp] theorem leadingZeros_zero_cons (items : List α) :
    leadingZeros (0 :: items) = leadingZeros items + 1 := by
  simp [leadingZeros]

/-- An item in front that is not zero leaves none. -/
theorem leadingZeros_cons_of_ne {item : α} (nonzero : item ≠ 0) (items : List α) :
    leadingZeros (item :: items) = 0 := by
  simp [leadingZeros, nonzero]

/-- Zeros put in front are counted. -/
theorem leadingZeros_replicate_append (count : Nat) (items : List α) :
    leadingZeros (List.replicate count 0 ++ items) = leadingZeros items + count := by
  induction count with
  | zero => simp
  | succ count inductionHypothesis =>
    rw [List.replicate_succ, List.cons_append, leadingZeros_zero_cons, inductionHypothesis]
    omega

/-- A list is its leading zeros and what is left when they are dropped. -/
theorem replicate_append_dropWhile (items : List α) :
    List.replicate (leadingZeros items) 0 ++ items.dropWhile (· == 0) = items := by
  induction items with
  | nil => rfl
  | cons item rest inductionHypothesis =>
    by_cases zero : item = 0
    · subst zero
      rw [leadingZeros_zero_cons, List.replicate_succ, List.cons_append]
      simpa using inductionHypothesis
    · simp [leadingZeros_cons_of_ne zero, zero]

end LeadingZeros

/-- Without its leading zeros a list of digits is the plain numeral of its number. The induction
drops the zeros one by one; at the first other digit nothing is left to drop. -/
theorem dropWhile_eq_numeral {spelled : List Nat} (below : ∀ digit ∈ spelled, digit < 58) :
    spelled.dropWhile (· == 0) = (Nat.digits 58 (Nat.ofDigits 58 spelled.reverse)).reverse := by
  induction spelled with
  | nil => simp
  | cons digit rest inductionHypothesis =>
    by_cases zero : digit = 0
    · subst zero
      rw [Nat.ofDigits_reverse_zero_cons]
      simpa using inductionHypothesis fun item member => below item (List.mem_cons_of_mem _ member)
    · have canonical : Nat.digits 58 (Nat.ofDigits 58 (digit :: rest).reverse) =
          (digit :: rest).reverse :=
        Nat.digits_ofDigits 58 (by decide) _
          (fun item member => below item (List.mem_reverse.mp member)) (by simpa using zero)
      rw [canonical, List.reverse_reverse]
      simp [zero]

/-- A list of digits is its leading zeros in front of the plain numeral of its number. -/
theorem eq_replicate_append_numeral {spelled : List Nat}
    (below : ∀ digit ∈ spelled, digit < 58) :
    spelled = List.replicate (leadingZeros spelled) 0 ++
      (Nat.digits 58 (Nat.ofDigits 58 spelled.reverse)).reverse := by
  rw [← dropWhile_eq_numeral below, replicate_append_dropWhile]

/-- The items of a plain numeral are digits. -/
theorem numeral_below (number : Nat) : ∀ digit ∈ (Nat.digits 58 number).reverse, digit < 58 :=
  fun _ member => Nat.digits_lt_base (by decide) (List.mem_reverse.mp member)

/-- A plain numeral starts with no zero: with the zeros in front of it, it would be longer than
itself. -/
theorem leadingZeros_numeral (number : Nat) :
    leadingZeros (Nat.digits 58 number).reverse = 0 := by
  have lengths := congrArg List.length (eq_replicate_append_numeral (numeral_below number))
  rw [List.reverse_reverse, Nat.ofDigits_digits, List.length_append, List.length_replicate]
    at lengths
  omega

/-- The digits of a byte string spell it. -/
theorem spells_spelling (bytes : Bytes) : Spells (spelling bytes) bytes where
  below digit member := by
    rcases List.mem_append.mp member with zero | significant
    · rw [List.eq_of_mem_replicate zero]
      decide
    · exact numeral_below _ digit significant
  number := by
    rw [spelling, List.reverse_append, List.reverse_reverse, List.reverse_replicate,
      Nat.ofDigits_append_replicate_zero, Nat.ofDigits_digits]
  zeros := by
    rw [spelling, leadingZeros_replicate_append, leadingZeros_numeral, Nat.zero_add]

/-- A byte string is spelled by one list of digits only. -/
theorem spells_iff (spelled : List Nat) (bytes : Bytes) :
    Spells spelled bytes ↔ spelled = spelling bytes := by
  constructor
  · intro spells
    rw [spelling, ← spells.zeros, ← spells.number]
    exact eq_replicate_append_numeral spells.below
  · rintro rfl
    exact spells_spelling bytes

/-- A byte string of `n` bytes is a number that `2 * n` digits can hold. -/
theorem toNat_reverse_lt (bytes : Bytes) : Bytes.toNat bytes.reverse < 58 ^ (2 * bytes.length) :=
  calc Bytes.toNat bytes.reverse
    _ < 256 ^ bytes.length := by simpa using Bytes.toNat_lt bytes.reverse
    _ ≤ (58 ^ 2) ^ bytes.length := Nat.pow_le_pow_left (by decide) _
    _ = 58 ^ (2 * bytes.length) := (Nat.pow_mul 58 2 bytes.length).symm

/-- A zero byte in front of the others adds nothing to the number. -/
theorem toNat_append_zero (low : Bytes) : Bytes.toNat (low ++ [0]) = Bytes.toNat low := by
  induction low with
  | nil => rfl
  | cons byte rest inductionHypothesis =>
    rw [List.cons_append, Bytes.toNat, inductionHypothesis, Bytes.toNat]

/-- A leading zero byte is spelled by a digit zero in front of the digits of the others. -/
theorem spelling_zero_cons (bytes : Bytes) : spelling (0 :: bytes) = 0 :: spelling bytes := by
  rw [spelling, leadingZeros_zero_cons, List.reverse_cons, toNat_append_zero,
    List.replicate_succ, List.cons_append, spelling]

/-- A byte string needs no more digits than hold the largest number of as many bytes. A leading
zero byte takes one digit and leaves room for the others, since a byte divides the one bound by more
than a digit does the other. At the first other byte the size of the number decides. -/
theorem length_spelling_le {limit : Nat} (bytes : Bytes)
    (room : 256 ^ bytes.length ≤ 58 ^ limit) : (spelling bytes).length ≤ limit := by
  induction bytes generalizing limit with
  | nil => simp [spelling, leadingZeros, Bytes.toNat]
  | cons byte rest inductionHypothesis =>
    by_cases zero : byte = 0
    · subst zero
      rw [spelling_zero_cons, List.length_cons]
      rw [List.length_cons, Nat.pow_succ] at room
      have positive : 0 < 256 ^ rest.length := Nat.pow_pos (by decide)
      cases limit with
      | zero => omega
      | succ limit =>
        rw [Nat.pow_succ] at room
        exact Nat.succ_le_succ (inductionHypothesis (by omega))
    · have bounded : Bytes.toNat (byte :: rest).reverse < 58 ^ limit := by
        refine lt_of_lt_of_le ?_ room
        simpa using Bytes.toNat_lt (byte :: rest).reverse
      rw [spelling, leadingZeros_cons_of_ne zero, List.replicate_zero, List.nil_append,
        List.length_reverse]
      exact (Nat.digits_length_le_iff (by decide) _).mpr bounded

/-- The digits written for a number are below the base. -/
theorem digits_below (width number : Nat) : ∀ digit ∈ digits width number, digit < 58 := by
  induction width generalizing number with
  | zero => simp [digits]
  | succ width inductionHypothesis =>
    rw [digits, List.forall_mem_cons]
    exact ⟨Nat.mod_lt _ (by decide), inductionHypothesis _⟩

/-- The digits written for a number stand for what the width can hold of it. -/
theorem ofDigits_digits (width number : Nat) :
    Nat.ofDigits 58 (digits width number) = number % 58 ^ width := by
  induction width generalizing number with
  | zero => simp [digits, Nat.mod_one]
  | succ width inductionHypothesis =>
    rw [digits, Nat.ofDigits_cons, inductionHypothesis, Nat.pow_succ, Nat.mul_comm (58 ^ width),
      Nat.mod_mul]

/-- The number that digits spell, summed up from the front, is their number. -/
theorem value_eq (spelled : List Nat) : value spelled = Nat.ofDigits 58 spelled.reverse := by
  simp [value, Nat.ofDigits_eq_foldr, List.foldr_reverse, Nat.add_comm]

/-- Writing puts down the letters of the digits that spell the byte string. -/
theorem encode_eq (bytes : Bytes) :
    encode bytes = (spelling bytes).map letter := by
  have below : ∀ digit ∈ (digits (2 * bytes.length) (Bytes.toNat bytes.reverse)).reverse,
      digit < 58 := fun digit member => digits_below _ _ digit (List.mem_reverse.mp member)
  simp only [encode, spelling, dropWhile_eq_numeral below, List.reverse_reverse, ofDigits_digits,
    Nat.mod_eq_of_lt (toNat_reverse_lt bytes)]

end Transact.Base58
