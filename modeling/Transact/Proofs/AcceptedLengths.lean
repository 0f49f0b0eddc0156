import Transact.Proofs.LengthBits
import Transact.Proofs.ShortPayloads

/-!
# Which bytes are a compact length

An input begins with a compact length, or it ends within one, or it is refused; there is nothing
else (`CompactLength.judged`). It begins with a length exactly when its front is what is written for
that length, it ends within one exactly when it is a shorter front of such a writing, and a refusal
stands whatever bytes follow. Payloads read compact lengths by a loop of their own, byte by byte
from any source; it judges every input alike, and only words its faults in its own way.
-/

namespace Transact

/-- Counting what is taken adds no fault. -/
theorem Reader.counted_eq_error_iff {ε α : Type} {read : Reader ε α} {input : Bytes} {fault : ε} :
    counted read input = .error fault ↔ read input = .error fault := by
  unfold counted
  split
  · rename_i other failed
    rw [failed, Except.error.injEq, Except.error.injEq]
  · rename_i value rest taken
    rw [taken]
    exact ⟨nofun, nofun⟩

namespace CompactLength

/-- An input begins with a length, which takes a number of bytes, when it is that long and its front
is what is written for the length. -/
def BeginsWith (input : Bytes) (length count : Nat) : Prop :=
  length ≤ maximum ∧ count ≤ input.length ∧ encode length = .ok (input.take count)

/-- An input ends within a length when it is a front, but not the whole, of what is written for
some length. -/
def EndsWithin (input : Bytes) : Prop :=
  ∃ length bytes, encode length = .ok bytes ∧ input <+: bytes ∧ input ≠ bytes

/-- A refusal of the bytes themselves, to which a lack of bytes does not belong. -/
inductive Error.IsRefusal : Error → Prop where
  /-- The last byte adds nothing. -/
  | redundant : IsRefusal .redundant
  /-- The third byte announces a fourth. -/
  | tooLong : IsRefusal .tooLong
  /-- The number is above the limit. -/
  | overflow (value : Nat) : IsRefusal (.overflow value)

/-- Every fault but the lack of bytes is a refusal. -/
theorem Error.isRefusal_iff (fault : Error) : fault.IsRefusal ↔ fault ≠ .insufficientData := by
  constructor
  · rintro refusal rfl
    cases refusal
  · intro other
    cases fault with
    | insufficientData => exact absurd rfl other
    | tooLong => exact .tooLong
    | overflow value => exact .overflow value
    | redundant => exact .redundant

/-- A length is counted off the front of an input exactly when the input begins with it. -/
theorem counted_decode_eq_ok_iff {input : Bytes} {length count : Nat} :
    Reader.counted decode input = .ok (length, count) ↔ BeginsWith input length count := by
  constructor
  · intro counted
    obtain ⟨bounded, decoded⟩ := Reader.read_of_counted (fun rest taken => by
      obtain ⟨bytes, _, spelled⟩ := canonical_decode taken
      exact ⟨bytes, spelled⟩) counted
    obtain ⟨bytes, written, spelled⟩ := canonical_decode decoded
    have front : input.take count = bytes := by
      have cut : input.take count ++ input.drop count = bytes ++ input.drop count := by
        rw [List.take_append_drop]
        exact spelled
      exact List.append_cancel_right cut
    exact ⟨((encode_eq_ok_iff _ _).mp written).1, bounded, front.symm ▸ written⟩
  · rintro ⟨_, bounded, written⟩
    have counted := (reads_of_encode written).counted_eq (input.drop count)
    rwa [List.take_append_drop, List.length_take_of_le bounded] at counted

/-- An input lacks bytes exactly when it ends within a length. -/
theorem decode_eq_insufficientData_iff {input : Bytes} :
    decode input = .error .insufficientData ↔ EndsWithin input := by
  constructor
  · intro failed
    obtain ⟨tail, length, completed⟩ := discerning_decode.completed failed rfl
    obtain ⟨bytes, written, spelled⟩ := canonical_decode completed
    rw [List.append_nil] at spelled
    refine ⟨length, bytes, written, ⟨tail, spelled⟩, ?_⟩
    rintro rfl
    have taken := reads_of_encode written []
    rw [List.append_nil, failed] at taken
    cases taken
  · rintro ⟨length, bytes, written, ⟨behind, rfl⟩, shorter⟩
    have something : behind ≠ [] := by
      rintro rfl
      exact shorter (List.append_nil input).symm
    obtain ⟨fault, failed, rfl⟩ :=
      settled_decode.error_of_front (reads_of_encode written) something
    exact failed

end CompactLength

namespace Payload

/-- A compact length is counted off a payload exactly when it is counted off the bytes, with the
same number of bytes. -/
theorem counted_compactLength_eq_ok_iff {input : Bytes} {length : UInt16} {count : Nat} :
    Reader.counted Shape.compactLength.decode input = .ok (length, count) ↔
      Reader.counted CompactLength.decode input = .ok (length.toNat, count) := by
  change Reader.counted readCompactLength input = _ ↔ _
  simp only [readCompactLength_eq, Reader.counted]
  cases decoded : CompactLength.decode input with
  | error fault => simp only [Except.mapError, Except.map, reduceCtorEq]
  | ok answer =>
    obtain ⟨total, rest⟩ := answer
    obtain ⟨_, written, _⟩ := CompactLength.canonical_decode decoded
    have stands := CompactLength.toNat_ofNat_of_encode written
    simp only [Except.mapError, Except.map, Except.ok.injEq, Prod.mk.injEq, ← UInt16.toNat_inj,
      stands]

/-- A compact length in a payload is at fault exactly when it is by itself; the fault is renamed. -/
theorem decode_compactLength_eq_error_iff {input : Bytes} {fault : Error} :
    Shape.compactLength.decode input = .error fault ↔
      ∃ cause, CompactLength.decode input = .error cause ∧ lengthFault cause = fault := by
  change readCompactLength input = _ ↔ _
  simp only [readCompactLength_eq]
  cases CompactLength.decode input with
  | error cause => simp [Except.mapError, Except.map]
  | ok answer => simp [Except.mapError, Except.map]

end Payload

namespace CompactLength

open Payload (Shape)

/-- What the two readers of compact lengths say of an input. -/
structure Judged (input : Bytes) : Prop where
  /-- A length is read exactly when the input begins with it. -/
  ok_iff : ∀ length count,
    Reader.counted decode input = .ok (length, count) ↔ BeginsWith input length count
  /-- Bytes are lacking exactly when the input ends within a length. -/
  insufficientData_iff :
    Reader.counted decode input = .error .insufficientData ↔ EndsWithin input
  /-- Any other input is refused, and with the same fault whatever follows it. -/
  refused : (∀ length count, ¬BeginsWith input length count) → ¬EndsWithin input →
    ∃ fault, Error.IsRefusal fault ∧
      ∀ tail, Reader.counted decode (input ++ tail) = .error fault
  /-- Masks and shifts lead to the same answer. -/
  bits_eq : Bits.decode input = Reader.counted decode input
  /-- A payload holds the same length in as many bytes. -/
  payload_ok_iff : ∀ (length : UInt16) (count : Nat),
    Reader.counted Shape.compactLength.decode input = .ok (length, count) ↔
      Reader.counted decode input = .ok (length.toNat, count)
  /-- A payload lacks bytes on the same inputs. -/
  payload_insufficientData_iff :
    Reader.counted Shape.compactLength.decode input = .error .insufficientData ↔
      Reader.counted decode input = .error .insufficientData
  /-- A payload that is refused is refused with the text of the fault, and with nothing else. -/
  payload_refused_iff : ∀ reported, reported ≠ .insufficientData →
    (Reader.counted Shape.compactLength.decode input = .error reported ↔
      ∃ fault, Error.IsRefusal fault ∧ Reader.counted decode input = .error fault ∧
        reported = .custom fault.report)

/-- Compact lengths are accepted exactly as they are written, by either reader, and every other
input is told apart as incomplete or as bad. Writing them bit by bit gives the same bytes. -/
theorem judged :
    (∀ length, Bits.encode length = encode length) ∧ ∀ input : Bytes, Judged input := by
  refine ⟨Bits.encode_eq, fun input => ?_⟩
  constructor
  case ok_iff => exact fun length count => counted_decode_eq_ok_iff
  case insufficientData_iff =>
    exact Reader.counted_eq_error_iff.trans decode_eq_insufficientData_iff
  case refused =>
    intro nothing complete
    cases counted : Reader.counted decode input with
    | ok answer => exact absurd (counted_decode_eq_ok_iff.mp counted) (nothing _ _)
    | error fault =>
      have failed := Reader.counted_eq_error_iff.mp counted
      have bad : fault ≠ .insufficientData := by
        rintro rfl
        exact complete (decode_eq_insufficientData_iff.mp failed)
      refine ⟨fault, fault.isRefusal_iff.mpr bad, fun tail => ?_⟩
      exact Reader.counted_eq_error_iff.mpr (settled_decode.refused failed bad tail)
  case bits_eq => exact Bits.decode_eq input
  case payload_ok_iff => exact fun length count => Payload.counted_compactLength_eq_ok_iff
  case payload_insufficientData_iff =>
    rw [Reader.counted_eq_error_iff, Reader.counted_eq_error_iff,
      Payload.decode_compactLength_eq_error_iff]
    constructor
    · rintro ⟨cause, failed, renamed⟩
      cases cause with
      | insufficientData => exact failed
      | tooLong => cases renamed
      | overflow value => cases renamed
      | redundant => cases renamed
    · exact fun failed => ⟨_, failed, rfl⟩
  case payload_refused_iff =>
    intro reported other
    rw [Reader.counted_eq_error_iff, Payload.decode_compactLength_eq_error_iff]
    simp only [Reader.counted_eq_error_iff]
    constructor
    · rintro ⟨cause, failed, rfl⟩
      cases cause with
      | insufficientData => exact absurd rfl other
      | tooLong => exact ⟨_, .tooLong, failed, rfl⟩
      | overflow value => exact ⟨_, .overflow value, failed, rfl⟩
      | redundant => exact ⟨_, .redundant, failed, rfl⟩
    · rintro ⟨fault, refusal, failed, rfl⟩
      refine ⟨fault, failed, ?_⟩
      cases refusal <;> rfl

end CompactLength

end Transact
