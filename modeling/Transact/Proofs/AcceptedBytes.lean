import Transact.Proofs.Sanity
import Transact.Proofs.WrittenTransactions

/-!
# Accepted bytes are written again

Signatures are checked over the bytes that are written for a message, not over those it was read
from. If one message could be read from many byte strings, a transaction could be changed in transit
without its signatures failing. So every byte string that is accepted has to be what is written for
the message in it, up to known exceptions.

The main statement, `Transaction.accepted_bytes`, is that there are two, both in the lookups of a
version 0 message: they may be absent, and one may select nothing. Checked transactions admit only
the first.
-/

namespace Transact

namespace Transaction

/-- A number of signatures is taken from its only spelling. -/
theorem canonical_readCount :
    Reader.Canonical readCount fun count bytes => CompactLength.encode count = .ok bytes := by
  intro input count rest taken
  unfold readCount at taken
  split at taken
  · rename_i answer decoded
    cases taken
    exact CompactLength.canonical_decode decoded
  · cases taken
  · cases taken

/-- A signature is taken from its bytes. -/
theorem canonical_readSignature :
    Reader.Canonical readSignature fun signature bytes => signature.toBytes = bytes := by
  apply Reader.canonical_block_map TransactionError.notEnoughSignatureBytes Signature.mk
  exact fun _ => rfl

/-- A transaction is read from its number of signatures, the signatures, and what its message is
read from. -/
theorem eq_of_read {input rest : Bytes} {transaction : Transaction}
    (taken : Transaction.read input = .ok (transaction, rest)) :
    ∃ count part, CompactLength.encode transaction.signatures.length = .ok count ∧
      input = count ++ ((transaction.signatures.map Signature.toBytes).flatten ++ part) ∧
      Message.read part = .ok (transaction.message, rest) := by
  simp only [Transaction.read, Outcome.bind_eq_ok_iff, Outcome.mapError_eq_ok_iff, Prod.exists]
    at taken
  obtain ⟨number, _, counted, signatures, part, signaturesTaken, message, _, messageTaken,
    returned⟩ := taken
  cases returned
  obtain ⟨count, encoded, rfl⟩ := canonical_readCount counted
  obtain ⟨_, rfl, rfl⟩ := Reader.canonical_many_map canonical_readSignature _ signaturesTaken
  rw [← signatures.length_toList] at encoded
  exact ⟨count, part, encoded, rfl, messageTaken⟩

/-- A transaction with as many signatures as its message requires is written as their number, the
signatures, and the message. -/
theorem toBytes_eq_ok_iff (transaction : Transaction) (bytes : Bytes) :
    transaction.toBytes = .ok bytes ↔
      transaction.checkSignatureCount = .ok () ∧
      ∃ count message, CompactLength.encode transaction.signatures.length = .ok count ∧
        transaction.message.toBytes = .ok message ∧
        bytes = count ++ ((transaction.signatures.map Signature.toBytes).flatten ++ message) := by
  rw [toBytes, messageData, Outcome.check_eq_ok_iff]
  simp only [Outcome.bind_eq_ok_iff, Outcome.mapError_eq_ok_iff]
  constructor
  · rintro ⟨checked, message, written, count, counted, returned⟩
    cases returned
    exact ⟨checked, count, message, counted, written, rfl⟩
  · rintro ⟨checked, count, message, counted, written, rfl⟩
    exact ⟨checked, message, written, count, counted, rfl⟩

/-- The part of an input that the message is read from: what stands behind the signatures. -/
def messagePart (transaction : Transaction) (input : Bytes) : Bytes :=
  input.drop (Wire.runSize transaction.signatures.length 64)

/-- The number of signatures and the signatures take a known number of bytes. -/
theorem length_signatures (transaction : Transaction) {count : Bytes}
    (encoded : CompactLength.encode transaction.signatures.length = .ok count) :
    (count ++ (transaction.signatures.map Signature.toBytes).flatten).length =
      Wire.runSize transaction.signatures.length 64 := by
  have signatures : (transaction.signatures.map Signature.toBytes).flatten.length =
      transaction.signatures.length * 64 := by
    simp [List.length_flatten, Function.comp_def]
  obtain ⟨_, rfl⟩ := (CompactLength.encode_eq_ok_iff _ _).mp encoded
  rw [List.length_append, CompactLength.length_groups, signatures, Wire.runSize]

/-- The message is read from what stands behind the number of signatures and the signatures. -/
theorem messagePart_eq (transaction : Transaction) {count part : Bytes}
    (encoded : CompactLength.encode transaction.signatures.length = .ok count) :
    transaction.messagePart
      (count ++ ((transaction.signatures.map Signature.toBytes).flatten ++ part)) = part := by
  rw [messagePart, ← List.append_assoc, ← length_signatures transaction encoded, List.drop_left]

/-- A transaction that is read as a whole and passes its check is written as it was read, or, if the
lookups of its message were absent, with a count of zero for them. -/
theorem toBytes_of_ofBytes {input : Bytes} {transaction : Transaction}
    (taken : Transaction.ofBytes input = .ok transaction)
    (sane : transaction.sanitize = .ok ()) :
    (∃ v0, transaction.message = .v0 v0 ∧
        V0Message.EndsAfterInstructions (transaction.messagePart input) ∧
        transaction.toBytes = .ok (input ++ [0])) ∨
      ¬V0Message.EndsAfterInstructions (transaction.messagePart input) ∧
        transaction.toBytes = .ok input := by
  rw [Transaction.sanitize, Outcome.check_eq_ok_iff, Outcome.mapError_eq_ok_iff] at sane
  obtain ⟨checked, saneMessage⟩ := sane
  obtain ⟨count, part, encoded, rfl, messageTaken⟩ :=
    eq_of_read ((Reader.whole_eq_ok_iff _ _ _ _).mp taken)
  rw [messagePart_eq transaction encoded]
  have writtenAs : ∀ message, transaction.message.toBytes = .ok message →
      transaction.toBytes = .ok (count ++
        ((transaction.signatures.map Signature.toBytes).flatten ++ message)) :=
    fun message written =>
      (toBytes_eq_ok_iff _ _).mpr ⟨checked, count, message, encoded, written, rfl⟩
  by_cases ends : V0Message.EndsAfterInstructions part
  · have head : part.head? = some versionMark := by
      obtain ⟨others, common, rfl, _⟩ := ends
      rfl
    obtain ⟨v0, isV0, v0Taken⟩ := Message.eq_v0_of_read head (by decide) messageTaken
    obtain ⟨_, _, written⟩ := V0Message.toBytes_of_endsAfterInstructions v0Taken ends
    have messageWritten : transaction.message.toBytes = .ok (part ++ [0]) := isV0 ▸ written
    refine Or.inl ⟨v0, isV0, ends, ?_⟩
    rw [writtenAs _ messageWritten]
    simp only [List.append_assoc]
  · refine Or.inr ⟨ends, writtenAs part ?_⟩
    rw [← List.append_nil part] at messageTaken
    rw [Message.toBytes_eq_front_iff messageTaken, List.append_nil]
    rintro ⟨v0, isV0, exceptional⟩
    rw [isV0] at saneMessage
    exact exceptional.elim ends (V0Message.not_hasEmptyLookup_of_sanitize saneMessage)

/-- Accepted bytes are written again. A message is written as the bytes it was read from, except
if it is of version 0 and its lookups were absent, which adds a count of zero, or one of them
selects nothing, which leaves that one out. A transaction that passes its check is written as it was
read or with that count of zero. -/
theorem accepted_bytes :
    (∀ (input : Bytes) (message : Message) (count : Nat),
      Message.ofBytesPartial input = .ok (message, count) →
        count ≤ input.length ∧
        (message.toBytes = .ok (input.take count) ↔ ¬∃ v0, message = .v0 v0 ∧
          (V0Message.EndsAfterInstructions input ∨ v0.HasEmptyLookup)) ∧
        ∀ v0, message = .v0 v0 →
          (V0Message.EndsAfterInstructions input → message.toBytes = .ok (input ++ [0])) ∧
          (v0.HasEmptyLookup → ∃ bytes, message.toBytes = .ok bytes ∧ bytes ≠ input.take count ∧
            Message.ofBytes bytes = .ok (.v0 v0.withoutEmptyLookups))) ∧
    (∀ (input : Bytes) (transaction : Transaction),
      Transaction.ofBytes input = .ok transaction → transaction.sanitize = .ok () →
        (∃ v0, transaction.message = .v0 v0 ∧
            V0Message.EndsAfterInstructions (transaction.messagePart input) ∧
            transaction.toBytes = .ok (input ++ [0])) ∨
          ¬V0Message.EndsAfterInstructions (transaction.messagePart input) ∧
            transaction.toBytes = .ok input) := by
  refine ⟨?_, fun input transaction => toBytes_of_ofBytes⟩
  intro input message count accepted
  obtain ⟨bounded, taken⟩ := Reader.read_of_counted (fun rest => Message.front_of_read) accepted
  have split : input.take count ++ input.drop count = input := List.take_append_drop count input
  have front : Message.read (input.take count ++ input.drop count) =
      .ok (message, input.drop count) := by rw [split, taken]
  have exactly := Message.toBytes_eq_front_iff front
  rw [split] at exactly
  refine ⟨bounded, exactly, ?_⟩
  rintro v0 rfl
  obtain ⟨legacy, isLegacy, _⟩ | ⟨other, isOther, v0Taken⟩ := Message.eq_of_read taken
  · cases isLegacy
  · cases isOther
    refine ⟨fun ends => (V0Message.toBytes_of_endsAfterInstructions v0Taken ends).2.2, ?_⟩
    intro empty
    obtain ⟨bytes, written⟩ := V0Message.exists_toBytes_of_read v0Taken
    refine ⟨bytes, written, ?_, ?_⟩
    · rintro rfl
      exact exactly.mp written ⟨v0, rfl, Or.inr empty⟩
    · have recognizable : (Message.v0 v0).IsRecognizable := trivial
      exact (Message.reads_of_toBytes recognizable written).whole_eq _

/-- A version 0 message of one instruction up to its lookups, as bytes. -/
def sampleSpelling : Bytes :=
  [0x80, 1, 0, 1, 2] ++ (Address.numbered 1).toBytes ++ (Address.numbered 9).toBytes ++
    Hash.zero.toBytes ++ [1, 1, 1, 0, 1, 7]

/-- The message that is read from it, with certain lookups. -/
def sampleSpelled (lookups : List TableLookup) : V0Message where
  header := ⟨1, 0, 1⟩
  accountKeys := [.numbered 1, .numbered 9]
  recentBlockhash := Hash.zero
  instructions := [⟨1, [0], [7]⟩]
  addressTableLookups := lookups

/-- A lookup that selects nothing, behind a count of one. -/
def sampleEmptyLookup : Bytes := [1] ++ (Address.numbered 5).toBytes ++ [0, 0]

/-- The sample is read without lookups, with a count of zero for them and a byte behind it, and with
a lookup that selects nothing. In all three cases it is written with a count of zero. As part of a
transaction with one signature it is read and written in the same way. -/
theorem accepted_bytes_sample :
    (Message.ofBytesPartial (sampleSpelling ++ [0, 7]) = .ok (.v0 (sampleSpelled []), 108) ∧
      (Message.v0 (sampleSpelled [])).toBytes = .ok (sampleSpelling ++ [0])) ∧
    (Message.ofBytesPartial sampleSpelling = .ok (.v0 (sampleSpelled []), 107) ∧
      V0Message.EndsAfterInstructions sampleSpelling ∧
      (Message.v0 (sampleSpelled [])).toBytes = .ok (sampleSpelling ++ [0])) ∧
    (Message.ofBytesPartial (sampleSpelling ++ sampleEmptyLookup) =
        .ok (.v0 (sampleSpelled [⟨.numbered 5, [], []⟩]), 142) ∧
      ∃ bytes, (Message.v0 (sampleSpelled [⟨.numbered 5, [], []⟩])).toBytes = .ok bytes ∧
        bytes ≠ sampleSpelling ++ sampleEmptyLookup ∧
        Message.ofBytes bytes = .ok (.v0 (sampleSpelled []))) ∧
    ∀ lookups ∈ [[], [0]],
      Transaction.ofBytes ([1] ++ Signature.zero.toBytes ++ sampleSpelling ++ lookups) =
        .ok ⟨[Signature.zero], .v0 (sampleSpelled [])⟩ ∧
      toBytes ⟨[Signature.zero], .v0 (sampleSpelled [])⟩ =
        .ok ([1] ++ Signature.zero.toBytes ++ sampleSpelling ++ [0]) := by
  obtain ⟨messages, transactions⟩ := accepted_bytes
  have behind : Message.ofBytesPartial (sampleSpelling ++ [0, 7]) =
      .ok (.v0 (sampleSpelled []), 108) := rfl
  have absent : Message.ofBytesPartial sampleSpelling = .ok (.v0 (sampleSpelled []), 107) := rfl
  have empty : Message.ofBytesPartial (sampleSpelling ++ sampleEmptyLookup) =
      .ok (.v0 (sampleSpelled [⟨.numbered 5, [], []⟩]), 142) := by decide +kernel
  have common : (sampleSpelled []).toLegacyMessage.toBytes = .ok sampleSpelling.tail := rfl
  have ends : ∀ others, V0Message.EndsAfterInstructions (sampleSpelling ++ others) ↔ others = [] :=
    fun others => V0Message.endsAfterInstructions_iff common
  have selecting : ¬(sampleSpelled []).HasEmptyLookup := by
    rintro ⟨_, member, _⟩
    cases member
  have endsAbsent : V0Message.EndsAfterInstructions sampleSpelling := (ends []).mpr rfl
  refine ⟨⟨behind, ?_⟩, ⟨absent, endsAbsent, ?_⟩, ⟨empty, ?_⟩, ?_⟩
  · refine (messages _ _ _ behind).2.1.mpr ?_
    rintro ⟨_, ⟨⟩, absentHere | emptyHere⟩
    · cases (ends [0, 7]).mp absentHere
    · exact selecting emptyHere
  · exact ((messages _ _ _ absent).2.2 _ rfl).1 endsAbsent
  · exact ((messages _ _ _ empty).2.2 _ rfl).2 ⟨_, List.mem_singleton_self _, rfl⟩
  · have whole : ∀ lookups ∈ [[], [0]],
        Transaction.ofBytes ([1] ++ Signature.zero.toBytes ++ sampleSpelling ++ lookups) =
          .ok ⟨[Signature.zero], .v0 (sampleSpelled [])⟩ := by decide +kernel
    have sane : sanitize ⟨[Signature.zero], .v0 (sampleSpelled [])⟩ = .ok () := by decide
    have part : ∀ lookups, messagePart ⟨[Signature.zero], .v0 (sampleSpelled [])⟩
        ([1] ++ Signature.zero.toBytes ++ sampleSpelling ++ lookups) = sampleSpelling ++ lookups :=
      fun _ => rfl
    intro lookups member
    refine ⟨whole lookups member, ?_⟩
    have written := transactions _ _ (whole lookups member) sane
    rw [part, ends] at written
    obtain ⟨_, _, rfl, shorter⟩ | ⟨present, same⟩ := written
    · simpa using shorter
    · obtain rfl | rfl : lookups = [] ∨ lookups = [0] := by simpa using member
      · exact absurd rfl present
      · exact same

end Transaction

end Transact
