import Transact.Proofs.Compilation
import Transact.Proofs.PayloadReading
import Transact.Proofs.PayloadWriting

/-!
# The payload form of messages is their wire form

The wire form of a message is written and read part by part, the payload form by the shape of its
layout. The main statement, `Message.payload_form`, is that the two agree on every message and on
every input, up to three differences: the payload form has no mark of the version, it keeps lookups
that select nothing, and it does not let an input end where the lookups should begin.
-/

namespace Transact

open Payload

namespace Payload.EndsAlike

variable {α : Type} [Layout α] {read : Reader MessageError α} {input : Bytes}

/-- Where readings end alike, the same values are taken and counted. -/
theorem ofBytesPartial_eq_ok_iff
    (alike : EndsAlike Layout.ofValue (read input) ((Layout.shape α).decode input)) (value : α)
    (count : Nat) :
    ofBytesPartial input = .ok (value, count) ↔
      Reader.counted read input = .ok (value, count) := by
  rw [ofBytesPartial, Reader.counted, Reader.counted, Payload.read]
  generalize read input = wireEnd at alike ⊢
  generalize (Layout.shape α).decode input = payloadEnd at alike ⊢
  cases alike with
  | taken held rest =>
    change Except.ok (Layout.ofValue held, _) = .ok (value, count) ↔
      Except.ok (Layout.ofValue held, _) = .ok (value, count)
    rw [Except.ok.injEq, Except.ok.injEq]
  | failed same =>
    change Except.error _ = .ok (value, count) ↔ Except.error _ = .ok (value, count)
    simp only [reduceCtorEq]

/-- Where readings end alike, the faults say the same. -/
theorem sameFault
    (alike : EndsAlike Layout.ofValue (read input) ((Layout.shape α).decode input))
    {fault : MessageError} {other : Error} (wireFailed : Reader.counted read input = .error fault)
    (payloadFailed : (ofBytesPartial input : Except Error (α × Nat)) = .error other) :
    SameFault fault other := by
  rw [Reader.counted] at wireFailed
  rw [ofBytesPartial, Reader.counted, Payload.read] at payloadFailed
  generalize read input = wireEnd at alike wireFailed
  generalize (Layout.shape α).decode input = payloadEnd at alike payloadFailed
  cases alike with
  | taken held rest => cases wireFailed
  | failed same =>
    cases wireFailed
    cases payloadFailed
    exact same

end Payload.EndsAlike

/-- Where an input begins without a mark, a legacy message is read as the part that both formats
have in common. -/
theorem LegacyMessage.ofBytesPartial_eq_counted {input : Bytes}
    (unmarked : ∀ first, input.head? = some first → first < versionMark) :
    LegacyMessage.ofBytesPartial input = Reader.counted LegacyMessage.readCommon input := by
  have same : LegacyMessage.read input = LegacyMessage.readCommon input := by
    cases input with
    | nil => rfl
    | cons first rest =>
      have below : hasVersionMark first = false :=
        decide_eq_false (UInt8.not_le.mpr (unmarked first rfl))
      rw [LegacyMessage.read, List.head?_cons, Option.any_some, below, if_neg Bool.false_ne_true]
  rw [LegacyMessage.ofBytesPartial, Reader.counted, Reader.counted, same]

namespace V0Message

/-- Behind its mark a version 0 message is read with its lookups expected, and takes one byte less
without the mark. -/
theorem ofBytesPartial_mark_eq_ok_iff {input : Bytes}
    (goesOn : ¬EndsAfterInstructions (versionMark :: input)) (message : V0Message) (count : Nat) :
    V0Message.ofBytesPartial (versionMark :: input) = .ok (message, count + 1) ↔
      Reader.counted readStrict input = .ok (message, count) := by
  have strict := read_mark_eq_readStrict goesOn
  rw [V0Message.ofBytesPartial, Reader.counted, Reader.counted, strict]
  cases taken : readStrict input with
  | error fault => simp only [reduceCtorEq]
  | ok answer =>
    obtain ⟨held, rest⟩ := answer
    obtain ⟨front, spelled⟩ := front_of_read (strict.trans taken)
    obtain ⟨_, rfl⟩ := List.cons.inj spelled
    simp only [List.length_cons, List.length_append, Except.ok.injEq, Prod.mk.injEq]
    refine and_congr_right fun _ => ?_
    omega

/-- Where a version 0 message cannot be read behind its mark, reading it with its lookups expected
ends in the same fault. -/
theorem counted_readStrict_eq_error {input : Bytes} {fault : MessageError}
    (goesOn : ¬EndsAfterInstructions (versionMark :: input))
    (failed : V0Message.ofBytesPartial (versionMark :: input) = .error fault) :
    Reader.counted readStrict input = .error fault := by
  rw [V0Message.ofBytesPartial, Reader.counted, read_mark_eq_readStrict goesOn] at failed
  rw [Reader.counted]
  cases taken : readStrict input with
  | error cause =>
    rw [taken] at failed
    exact failed
  | ok answer =>
    rw [taken] at failed
    cases failed

/-- Where the input ends after the instructions, the whole of it is a message without lookups in the
wire form, and too short in the payload form. -/
theorem ofBytesPartial_of_endsAfterInstructions {input : Bytes}
    (ends : EndsAfterInstructions (versionMark :: input)) :
    (∃ message, V0Message.ofBytesPartial (versionMark :: input) =
        .ok (message, input.length + 1) ∧ message.addressTableLookups = []) ∧
      (Payload.ofBytesPartial input : Except Payload.Error (V0Message × Nat)) =
        .error .insufficientData := by
  have strict := readStrict_of_endsAfterInstructions ends
  have alike := endsAlike_readStrict input
  rw [strict] at alike
  obtain ⟨rest, common, spelled, commonTaken⟩ := ends
  obtain ⟨_, rfl⟩ := List.cons.inj spelled
  constructor
  · have taken : V0Message.read (versionMark :: input) = .ok (⟨common, []⟩, []) := by
      rw [read_mark_eq, commonTaken]
      rfl
    refine ⟨⟨common, []⟩, ?_, rfl⟩
    rw [V0Message.ofBytesPartial, Reader.counted, taken]
    rfl
  · rw [Payload.ofBytesPartial, Reader.counted, Payload.read]
    generalize (Layout.shape V0Message).decode input = payloadEnd at alike ⊢
    cases alike with
    | failed same =>
      cases same
      rfl

end V0Message

/-- The payload form and the wire form of messages agree.

A legacy message is written as the same bytes in both, and a version 0 message without empty lookups
as the same bytes behind its mark. An input that begins without a mark is the payload form of a
legacy message exactly when it is its wire form, and an input is the payload form of a version 0
message exactly when it is its wire form behind the mark, unless it ends after the instructions: the
wire form then has no lookups, and the payload form is too short. Where neither can be read, the
faults say the same. -/
theorem Message.payload_form :
    (∀ (message : LegacyMessage) (bytes : Bytes),
      Payload.toBytes message = .ok bytes ↔ message.toBytes = .ok bytes) ∧
    (∀ (message : V0Message), ¬message.HasEmptyLookup → ∀ bytes : Bytes,
      message.toBytes = .ok bytes ↔
        ∃ payload, Payload.toBytes message = .ok payload ∧ bytes = versionMark :: payload) ∧
    (∀ input : Bytes, (∀ first, input.head? = some first → first < versionMark) →
      (∀ (message : LegacyMessage) (count : Nat),
        Payload.ofBytesPartial input = .ok (message, count) ↔
          LegacyMessage.ofBytesPartial input = .ok (message, count)) ∧
      ∀ fault other, LegacyMessage.ofBytesPartial input = .error fault →
        (Payload.ofBytesPartial input : Except Error (LegacyMessage × Nat)) = .error other →
          SameFault fault other) ∧
    ∀ input : Bytes,
      (¬V0Message.EndsAfterInstructions (versionMark :: input) →
        ∀ (message : V0Message) (count : Nat),
          Payload.ofBytesPartial input = .ok (message, count) ↔
            V0Message.ofBytesPartial (versionMark :: input) = .ok (message, count + 1)) ∧
      (V0Message.EndsAfterInstructions (versionMark :: input) →
        (∃ message, V0Message.ofBytesPartial (versionMark :: input) =
            .ok (message, input.length + 1) ∧ message.addressTableLookups = []) ∧
          (Payload.ofBytesPartial input : Except Error (V0Message × Nat)) =
            .error .insufficientData) ∧
      ∀ fault other, V0Message.ofBytesPartial (versionMark :: input) = .error fault →
        (Payload.ofBytesPartial input : Except Error (V0Message × Nat)) = .error other →
          SameFault fault other := by
  refine ⟨?_, ?_, ?_, ?_⟩
  · intro message bytes
    exact message.succeedAlike_toBytes bytes
  · intro message selecting bytes
    have kept := (V0Message.withoutEmptyLookups_eq_iff message).mpr selecting
    rw [← message.succeedAlike_toBytes kept bytes, Outcome.map_eq_ok_iff]
    simp only [eq_comm]
  · intro input unmarked
    have alike := LegacyMessage.endsAlike_readCommon input
    rw [LegacyMessage.ofBytesPartial_eq_counted unmarked]
    exact ⟨alike.ofBytesPartial_eq_ok_iff, fun _ _ => alike.sameFault⟩
  · intro input
    have alike := V0Message.endsAlike_readStrict input
    refine ⟨?_, V0Message.ofBytesPartial_of_endsAfterInstructions, ?_⟩
    · intro goesOn message count
      rw [V0Message.ofBytesPartial_mark_eq_ok_iff goesOn]
      exact alike.ofBytesPartial_eq_ok_iff message count
    · intro fault other wireFailed payloadFailed
      by_cases ends : V0Message.EndsAfterInstructions (versionMark :: input)
      · obtain ⟨⟨message, taken, _⟩, _⟩ := V0Message.ofBytesPartial_of_endsAfterInstructions ends
        rw [taken] at wireFailed
        cases wireFailed
      · exact alike.sameFault (V0Message.counted_readStrict_eq_error ends wireFailed) payloadFailed

/-- The payload form of a message that says nothing, up to lookups. -/
def bareSpelling : Bytes := [1, 0, 0, 0] ++ Hash.zero.toBytes ++ [0]

/-- The message that says nothing. -/
def bareMessage : LegacyMessage := ⟨⟨1, 0, 0⟩, [], Hash.zero, []⟩

/-- The version 0 message of the sample is written alike behind its mark. The bare message is read
alike in both formats, with an empty list of lookups behind it for version 0; without that list it
is too short in the payload form. An input that ends in the header is too short in all forms, and
one that spells the number of keys at greater length is refused by all for that. -/
theorem payload_form_sample :
    (∃ payload, Payload.toBytes sampleV0 = .ok payload ∧
      sampleV0.toBytes = .ok (versionMark :: payload)) ∧
    Payload.ofBytesPartial bareSpelling = .ok (bareMessage, 37) ∧
    Payload.ofBytesPartial (bareSpelling ++ [0, 7]) = .ok (V0Message.mk bareMessage [], 38) ∧
    (Payload.ofBytesPartial bareSpelling : Except Error (V0Message × Nat)) =
      .error .insufficientData ∧
    ((Payload.ofBytesPartial [1, 0] : Except Error (LegacyMessage × Nat)) =
        .error .insufficientData ∧
      SameFault .bufferTooSmall .insufficientData) ∧
    (Payload.ofBytesPartial [1, 0, 0, 0x80, 0] : Except Error (V0Message × Nat)) =
        .error (.custom CompactLength.Error.redundant.report) ∧
      SameFault (.invalidCompactLength .redundant)
        (.custom CompactLength.Error.redundant.report) := by
  obtain ⟨_, writtenV0, legacy, v0⟩ := Message.payload_form
  have selecting : ¬sampleV0.HasEmptyLookup := by
    rintro ⟨lookup, member, empty⟩
    rw [List.mem_singleton.mp member] at empty
    cases empty
  have common : bareMessage.toBytes = .ok bareSpelling := rfl
  have ends : ∀ others, V0Message.EndsAfterInstructions (versionMark :: (bareSpelling ++ others)) ↔
      others = [] := fun others => V0Message.endsAfterInstructions_iff common
  have absent : V0Message.EndsAfterInstructions (versionMark :: bareSpelling) :=
    (ends []).mpr rfl
  have present : ¬V0Message.EndsAfterInstructions (versionMark :: (bareSpelling ++ [0, 7])) :=
    fun ended => nomatch (ends [0, 7]).mp ended
  have low : ∀ (input : Bytes), input.head? = some 1 →
      ∀ first, input.head? = some first → first < versionMark := by
    intro input one first head
    rw [one] at head
    cases head
    decide
  obtain ⟨payload, written, spelled⟩ := (writtenV0 sampleV0 selecting _).mp rfl
  have shortLegacy : (Payload.ofBytesPartial [1, 0] : Except Error (LegacyMessage × Nat)) =
      .error .insufficientData := rfl
  have aliasV0 : (Payload.ofBytesPartial [1, 0, 0, 0x80, 0] : Except Error (V0Message × Nat)) =
      .error (.custom CompactLength.Error.redundant.report) := rfl
  exact ⟨⟨payload, written, spelled ▸ rfl⟩,
    ((legacy bareSpelling (low _ rfl)).1 _ _).mpr rfl, ((v0 _).1 present _ _).mpr rfl,
    ((v0 _).2.1 absent).2, ⟨shortLegacy, (legacy [1, 0] (low _ rfl)).2 _ _ rfl shortLegacy⟩,
    aliasV0, (v0 _).2.2 _ _ rfl aliasV0⟩

end Transact
