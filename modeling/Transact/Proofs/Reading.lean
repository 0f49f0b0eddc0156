import Mathlib.Data.List.Forall2
import Transact.CompactLength
import Transact.Reader

/-!
# What readers read

A reader reads a value from certain bytes when it takes exactly those bytes off the front of every
input that begins with them (`Reader.Reads`). What follows cannot change the value, so the reader of
a whole is judged part by part: bytes stand behind bytes, and each part is read as if it stood
alone.

The main statements are those about lists (`Reader.reads_many`) and compact lengths
(`CompactLength.reads_of_encode`), and what `Reads` says of an input that ends with the value or
goes on behind it.
-/

namespace Transact

namespace Reader

variable {ε α : Type} {read : Reader ε α} {bytes : Bytes} {value : α}

/-- The value is read from exactly these bytes, whatever follows. -/
def Reads (read : Reader ε α) (bytes : Bytes) (value : α) : Prop :=
  ∀ tail, read (bytes ++ tail) = .ok (value, tail)

/-- Bytes are read as one value only. -/
theorem Reads.value_unique {other : α} (reads : Reads read bytes value)
    (readsOther : Reads read bytes other) : value = other := by
  have taken := reads []
  rw [readsOther []] at taken
  exact (Prod.mk.inj (Except.ok.inj taken)).1.symm

/-- Two parts are read from bytes one behind the other, where the first tells how to go on. -/
theorem Reads.bind {β : Type} (next : α → Reader ε β) {behind : Bytes} {result : β}
    (first : Reads read bytes value) (second : Reads (next value) behind result) :
    Reads (fun input => do
      let (taken, rest) ← read input
      next taken rest) (bytes ++ behind) result := by
  intro tail
  dsimp only
  rw [List.append_assoc, first]
  exact second tail

/-- What is made of a value is read from the bytes of the value. -/
theorem Reads.map {β : Type} (make : α → β) (reads : Reads read bytes value) :
    Reads (fun input => do
      let (taken, rest) ← read input
      return (make taken, rest)) bytes (make value) := by
  intro tail
  dsimp only
  rw [reads]
  rfl

/-- A byte string of known length is read from itself. -/
theorem reads_bytes (short : ε) (bytes : Bytes) :
    Reads (Reader.bytes short bytes.length) bytes bytes := by
  intro tail
  rw [Reader.bytes, (Bytes.cut?_eq_some_iff _ _ bytes tail).mpr ⟨rfl, rfl⟩]

/-- A block is read from its bytes. -/
theorem reads_block (short : ε) {n : Nat} (block : FixedList n UInt8) :
    Reads (Reader.block short n) block.toList block := by
  obtain ⟨items, rfl⟩ := block
  intro tail
  simp [Reader.block]

/-- What is made of a block is read from the bytes of the block. -/
theorem reads_block_map (short : ε) {n : Nat} (make : FixedList n UInt8 → α)
    (block : FixedList n UInt8) :
    Reads (fun input => do
      let (bytes, rest) ← Reader.block short n input
      return (make bytes, rest)) block.toList (make block) :=
  (reads_block short block).map make

/-- Taking a list of known length is known from the items that are taken. -/
theorem map_toList_eq_ok_iff {n : Nat} (outcome : Except ε (FixedList n α × Bytes))
    (list : FixedList n α) (tail : Bytes) :
    outcome.map (fun (list, rest) => (list.toList, rest)) = .ok (list.toList, tail) ↔
      outcome = .ok (list, tail) := by
  cases outcome with
  | error fault => exact ⟨nofun, nofun⟩
  | ok answer =>
    obtain ⟨taken, rest⟩ := answer
    simp only [Except.map, Except.ok.injEq, Prod.mk.injEq, and_congr_left_iff]
    rintro rfl
    exact ⟨FixedList.ext, congrArg FixedList.toList⟩

/-- Values that are each read from their own bytes are read from those bytes one after the other. -/
theorem reads_many {parts : List Bytes} {values : List α}
    (items : List.Forall₂ (Reads read) parts values) :
    Reads (many read values.length) parts.flatten ⟨values, rfl⟩ := by
  intro tail
  induction items with
  | nil => rfl
  | @cons part value parts values first _ inductionHypothesis =>
    rw [← map_toList_eq_ok_iff]
    refine (many_succ read values.length _).trans ?_
    rw [List.flatten_cons, List.append_assoc, first]
    dsimp only
    rw [inductionHypothesis]
    rfl

/-- Items with a fixed writing that are each read from it are read from all writings together. -/
theorem reads_many_map {write : α → Bytes} (each : ∀ item, Reads read (write item) item)
    (items : List α) :
    Reads (many read items.length) (items.map write).flatten ⟨items, rfl⟩ := by
  refine reads_many ?_
  rw [List.forall₂_map_left_iff, List.forall₂_same]
  exact fun item _ => each item

/-- A value off the front takes as many bytes as it was read from. -/
theorem Reads.counted_eq (reads : Reads read bytes value) (tail : Bytes) :
    counted read (bytes ++ tail) = .ok (value, bytes.length) := by
  simp [counted, reads tail]

/-- An input of just these bytes is read as the value. -/
theorem Reads.whole_eq (reads : Reads read bytes value) (trailing : Nat → ε) :
    whole read trailing bytes = .ok value := by
  have taken := reads []
  rw [List.append_nil] at taken
  simp only [whole, taken]

/-- An input that goes on behind these bytes is refused. -/
theorem Reads.whole_append_eq (reads : Reads read bytes value) (trailing : Nat → ε) {tail : Bytes}
    (more : tail ≠ []) : whole read trailing (bytes ++ tail) = .error (trailing tail.length) := by
  have taken := reads tail
  obtain ⟨first, rest, rfl⟩ := List.exists_cons_of_ne_nil more
  simp only [whole, taken]

end Reader

namespace CompactLength

/-- A byte with the high bit adds its seven low bits and announces another byte. -/
theorem visit_more {position value low : Nat} (early : position + 1 < maximumSize)
    (small : low < 128) (within : value + low * Nat.pow 128 position ≤ maximum) :
    visit position value (UInt8.ofNat (128 + low)) =
      .ok (.more (value + low * Nat.pow 128 position)) := by
  have stands : (UInt8.ofNat (128 + low)).toNat = 128 + low := by
    rw [UInt8.toNat_ofNat']
    omega
  have low_eq : (UInt8.ofNat (128 + low)).toNat % 128 = low := by omega
  have high : ¬UInt8.ofNat (128 + low) < 128 := by
    rw [UInt8.lt_iff_toNat_lt, stands]
    exact Nat.not_lt.mpr (Nat.le_add_right 128 low)
  have nonzero : UInt8.ofNat (128 + low) ≠ 0 := by
    rintro zero
    exact high (zero ▸ by decide)
  simp only [visit, low_eq, nonzero, high, false_and, if_false, Nat.not_le.mpr early,
    Nat.not_lt.mpr within, ge_iff_le]

/-- A byte without the high bit adds itself and ends the length. It is zero only if it is the
first. -/
theorem visit_done {position value low : Nat} (small : low < 128)
    (shortest : low = 0 → position = 0) (within : value + low * Nat.pow 128 position ≤ maximum) :
    visit position value (UInt8.ofNat low) =
      .ok (.done (value + low * Nat.pow 128 position)) := by
  have stands : (UInt8.ofNat low).toNat = low := by
    rw [UInt8.toNat_ofNat']
    omega
  have low_eq : (UInt8.ofNat low).toNat % 128 = low := by omega
  have ends : UInt8.ofNat low < 128 := by
    rw [UInt8.lt_iff_toNat_lt, stands]
    exact small
  have high : ¬(128 : UInt8) ≤ UInt8.ofNat low := UInt8.not_le.mpr ends
  have first : ¬(UInt8.ofNat low = 0 ∧ position ≠ 0) := by
    rintro ⟨zero, behind⟩
    rw [← UInt8.toNat_inj, stands] at zero
    exact behind (shortest zero)
  simp only [visit, low_eq, first, high, ends, and_false, if_false, if_true, ge_iff_le, gt_iff_lt,
    Nat.not_lt.mpr within]

/-- Reading goes on behind a byte with the high bit. -/
theorem decodeFrom_more {position value low : Nat} (early : position + 1 < maximumSize)
    (small : low < 128) (within : value + low * Nat.pow 128 position ≤ maximum) (rest : Bytes) :
    decodeFrom position value (UInt8.ofNat (128 + low) :: rest) =
      decodeFrom (position + 1) (value + low * Nat.pow 128 position) rest := by
  simp only [decodeFrom, visit_more early small within]

/-- Reading ends with a byte without the high bit. -/
theorem decodeFrom_done {position value low : Nat} (small : low < 128)
    (shortest : low = 0 → position = 0) (within : value + low * Nat.pow 128 position ≤ maximum)
    (rest : Bytes) :
    decodeFrom position value (UInt8.ofNat low :: rest) =
      .ok (value + low * Nat.pow 128 position, rest) := by
  simp only [decodeFrom, visit_done small shortest within]

/-- Every length takes at least one byte. -/
theorem groups_ne_nil (length : Nat) : groups length ≠ [] := by
  unfold groups
  split
  · exact List.cons_ne_nil _ _
  · split <;> exact List.cons_ne_nil _ _

/-- A length within the limit is read from its writing. -/
theorem reads_groups {length : Nat} (within : length ≤ maximum) :
    Reader.Reads decode (groups length) length := by
  intro tail
  have limited : length ≤ 65535 := within
  have none_above : Nat.pow 128 0 = 1 := rfl
  have one_above : Nat.pow 128 (0 + 1) = 128 := rfl
  have two_above : Nat.pow 128 (0 + 1 + 1) = 16384 := rfl
  unfold groups decode
  split
  · have total : 0 + length * Nat.pow 128 0 = length := by rw [none_above]; omega
    rw [List.singleton_append, decodeFrom_done (by omega) (fun _ => rfl) (by omega), total]
  · split
    · have total : 0 + length % 128 * Nat.pow 128 0 + length / 128 * Nat.pow 128 (0 + 1) =
          length := by
        rw [none_above, one_above]
        omega
      rw [List.cons_append, List.singleton_append,
        decodeFrom_more (by decide) (by omega) (by omega),
        decodeFrom_done (by omega) (by omega) (by omega), total]
    · have total : 0 + length % 128 * Nat.pow 128 0 + length / 128 % 128 * Nat.pow 128 (0 + 1) +
          length / 16384 * Nat.pow 128 (0 + 1 + 1) = length := by
        rw [none_above, one_above, two_above]
        omega
      rw [List.cons_append, List.cons_append, List.singleton_append,
        decodeFrom_more (by decide) (by omega) (by omega),
        decodeFrom_more (by decide) (by omega) (by omega),
        decodeFrom_done (by omega) (by omega) (by omega), total]

/-- Exactly the lengths within the limit are written. -/
theorem encode_eq_ok_iff (length : Nat) (bytes : Bytes) :
    encode length = .ok bytes ↔ length ≤ maximum ∧ bytes = groups length := by
  unfold encode
  by_cases within : length ≤ maximum
  · simp only [within, if_true, true_and, Except.ok.injEq, eq_comm]
  · simp only [within, if_false, false_and, reduceCtorEq]

/-- A written length is read from its writing. -/
theorem reads_of_encode {length : Nat} {bytes : Bytes} (written : encode length = .ok bytes) :
    Reader.Reads decode bytes length := by
  obtain ⟨within, rfl⟩ := (encode_eq_ok_iff length bytes).mp written
  exact reads_groups within

end CompactLength

end Transact
