import Transact.Proofs.AcceptedPayloads
import Transact.Proofs.IncompleteInput

/-!
# Payloads that were cut short

Where a payload ends too soon, its reader must say so and nothing else. It reads the front as it
would read the whole, so each mark, count and letter that it judges before the bytes run out is one
that was written, and it never judges a part of which bytes are missing: a text is checked when all
of its letters are there, and a compact length after each byte.

By induction over shapes, every reader is settled (`Payload.Shape.settled_decode`): bytes behind an
input change nothing about it unless the reader lacks bytes. This holds of all shapes, also of those
that can be neither written nor read. The main statement, `Payload.insufficient_of_cut`, follows for
everything that is read as it is written.
-/

namespace Transact

open Reader (Reads Settled Canonical)

namespace Reader

variable {ε : Type} {short : ε → Prop} {fault : ε}

/-- A run of bytes is read without a look at what follows, and fails only for lack of bytes. -/
theorem settled_bytes (incomplete : short fault) (count : Nat) :
    Settled short (Reader.bytes fault count) := by
  refine (discerning_bytes incomplete count).settled
    (Canonical.isLocal (canonical_bytes fault count) ?_)
  rintro value bytes ⟨rfl, rfl⟩
  exact reads_bytes fault value

/-- A byte is read without a look at what follows, and fails only for lack of bytes. -/
theorem settled_byte (incomplete : short fault) : Settled short (Reader.byte fault) := by
  refine (discerning_byte incomplete).settled (Canonical.isLocal (canonical_byte fault) ?_)
  rintro value bytes rfl
  exact fun _ => rfl

end Reader

/-- A length is settled by its own bytes. -/
theorem CompactLength.settled_decode :
    Settled (· = CompactLength.Error.insufficientData) CompactLength.decode :=
  discerning_decode.settled (Canonical.isLocal canonical_decode fun _ _ => reads_of_encode)

namespace Payload

/-- The input ended before the value did. -/
def Error.IsIncomplete (fault : Error) : Prop := fault = .insufficientData

theorem Error.isIncomplete_insufficientData : IsIncomplete .insufficientData := rfl

open Error (IsIncomplete isIncomplete_insufficientData)

/-- A number is settled by its own bytes. -/
theorem settled_number (width : Nat) : Settled IsIncomplete (readNumber width) :=
  (Reader.settled_bytes isIncomplete_insufficientData width).bind fun bytes =>
    Reader.settled_pure IsIncomplete (Bytes.toNat bytes)

/-- A byte string is settled by its count and its own bytes. -/
theorem settled_blob : Settled IsIncomplete readBlob :=
  (settled_number 8).bind fun count =>
    Reader.settled_bytes isIncomplete_insufficientData count

/-- The fault of a payload whose compact length is at fault. -/
def lengthFault : CompactLength.Error → Error
  | .insufficientData => .insufficientData
  | fault => .custom fault.report

/-- A compact length in a payload is one of the wire, with its faults renamed. -/
theorem readCompactLength_eq :
    readCompactLength = fun input => ((CompactLength.decode input).mapError lengthFault).map
      fun answer => (UInt16.ofNat answer.1, answer.2) := by
  funext input
  rw [readCompactLength, CompactLength.gather_byte_eq _ _ rfl (by decide), CompactLength.decode]
  cases CompactLength.decodeFrom 0 0 input with
  | ok taken => rfl
  | error fault => cases fault <;> rfl

/-- A compact length in a payload is settled by its own bytes. -/
theorem settled_compactLength : Settled IsIncomplete readCompactLength := by
  rw [readCompactLength_eq]
  refine (CompactLength.settled_decode.mapError ?_).map UInt16.ofNat
  rintro fault rfl
  rfl

namespace Shape

/-- A truth value is settled by its byte. -/
theorem settled_boolean : Settled IsIncomplete Shape.boolean.decode :=
  (Reader.settled_byte isIncomplete_insufficientData).bind fun byte =>
    (Reader.settled_pure _ false).ite
      ((Reader.settled_pure _ true).ite (Reader.settled_error _ (Error.invalidBool byte)))

/-- A text is settled by its letters, which are all there before they are judged. -/
theorem settled_text : Settled IsIncomplete Shape.text.decode := by
  refine settled_blob.bind fun letters => ?_
  dsimp only
  cases String.fromUTF8? ⟨letters.toArray⟩ with
  | none => exact Reader.settled_error _ Error.invalidUtf8
  | some text => exact Reader.settled_pure _ text

variable {inner : Shape}

/-- A value that may be missing is settled by its mark and, if it is there, as the value is. -/
theorem settled_optional (each : Settled IsIncomplete inner.decode) :
    Settled IsIncomplete (Shape.optional inner).decode :=
  (Reader.settled_byte isIncomplete_insufficientData).bind fun mark =>
    (Reader.settled_pure _ none).ite
      ((each.bind fun value => Reader.settled_pure _ (some value)).ite
        (Reader.settled_error _ (Error.invalidOptionTag mark)))

/-- A list of values is settled when each value is. -/
theorem settled_listOf (each : Settled IsIncomplete inner.decode) (count : Nat) :
    Settled IsIncomplete (Reader.listOf inner.decode count) :=
  (Reader.settled_many each count).bind fun items => Reader.settled_pure _ items.toList

end Shape

mutual

/-- Reading a value of any shape is settled. -/
theorem Shape.settled_decode : (shape : Shape) → Settled IsIncomplete shape.decode
  | .byte => Reader.settled_byte isIncomplete_insufficientData
  | .integer _ width => (settled_number width).bind fun number =>
    Reader.settled_pure _ (BitVec.ofNat (8 * width) number)
  | .boolean => Shape.settled_boolean
  | .text => Shape.settled_text
  | .blob => settled_blob
  | .unit => Reader.settled_pure _ ()
  | .compactLength => settled_compactLength
  | .optional inner => Shape.settled_optional inner.settled_decode
  | .sequence inner => (settled_number 8).bind (Shape.settled_listOf inner.settled_decode)
  | .unsizedSequence inner => (settled_number 8).bind (Shape.settled_listOf inner.settled_decode)
  | .compactSequence inner => settled_compactLength.bind fun count =>
    Shape.settled_listOf inner.settled_decode count.toNat
  | .array count inner => Reader.settled_many inner.settled_decode count
  | .tuple components => components.settled_decode
  | .record fields => fields.settled_decode
  | .readable => Reader.settled_pure _ false
  | .refusal => Reader.settled_error _ (Error.custom "refused")
  | .unsupported shape => Reader.settled_error _ (Error.unsupported shape)

/-- Reading components one after another is settled. -/
theorem Fields.settled_decode : (fields : Fields) → Settled IsIncomplete fields.decode
  | .nil => Reader.settled_pure _ ()
  | .cons _ shape rest => shape.settled_decode.bind fun value =>
    rest.settled_decode.bind fun values => Reader.settled_pure _ (value, values)

end

section Layout

variable {α : Type} [Layout α]

/-- Reading a value of any layout is settled. -/
theorem settled_read : Settled IsIncomplete (Payload.read : Reader Error α) :=
  (Layout.shape α).settled_decode.map Layout.ofValue

/-- A payload that was cut short is reported as such. Let a value be written, all parts of which are
of shapes that are read as they are written. On every front of the bytes but the whole of them, both
readers run out of bytes: they take no value, and no other fault is reported. -/
theorem insufficient_of_cut (value : α) (faithful : (Layout.shape α).Faithful (Layout.toValue value))
    (bytes front : Bytes) (written : toBytes value = .ok bytes) (cut : front <+: bytes)
    (shorter : front ≠ bytes) :
    (ofBytes front : Except Error α) = .error .insufficientData ∧
      (ofBytesPartial front : Except Error (α × Nat)) = .error .insufficientData := by
  obtain ⟨behind, rfl⟩ := cut
  have something : behind ≠ [] := by
    rintro rfl
    exact shorter (List.append_nil front).symm
  obtain ⟨fault, failed, rfl⟩ :=
    settled_read.error_of_front (reads_of_toBytes faithful written) something
  exact ⟨by rw [ofBytes, Reader.whole, failed], by rw [ofBytesPartial, Reader.counted, failed]⟩

end Layout

/-- The sample lacks bytes when it is cut in the middle of the two bytes of its letter, behind a
count of two compact lengths, and within the second of these. -/
theorem insufficient_of_cut_sample :
    toBytes sampleValue = .ok sampleValueSpelling ∧
    ∀ count ∈ [10, 27, 29],
      (ofBytes (sampleValueSpelling.take count) : Except Error SampleValue) =
          .error .insufficientData ∧
        (ofBytesPartial (sampleValueSpelling.take count) : Except Error (SampleValue × Nat)) =
          .error .insufficientData := by
  have written : toBytes sampleValue = .ok sampleValueSpelling := rfl
  refine ⟨written, fun count member => ?_⟩
  have shorter : ∀ count ∈ [10, 27, 29], sampleValueSpelling.take count ≠ sampleValueSpelling := by
    decide
  exact insufficient_of_cut sampleValue faithful_sampleValue _ _ written (List.take_prefix _ _)
    (shorter count member)

end Payload

end Transact
