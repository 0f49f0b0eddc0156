import Transact.Proofs.Compilation
import Transact.Proofs.Sanity
import Transact.Transaction.Signing

/-!
# Signed bytes identify the message

A signature covers the bytes that are written for a message, so it belongs to every message that is
written as the same bytes. Within one format there is only one such message, since a message is read
back from its writing. Across the formats the first byte alone decides nothing: a legacy message of
128 signers begins with the mark of version 0, and its check does not forbid it.

The main statement, `Transaction.signed_bytes_identify`, is that no two checked messages share their
bytes. A version 0 message that continues such a legacy message would have to describe at least 128
keys and count at most two of them (`Message.not_written_alike`).
-/

namespace Transact

namespace CompactLength

/-- Lengths from 128 to 256 are spelled with two bytes, of which the first has the high bit and the
second is one or two. -/
theorem groups_of_byte_range {length : Nat} (least : 128 ≤ length) (most : length ≤ 256) :
    ∃ low high, groups length = [low, high] ∧ 128 ≤ low.toNat ∧ high.toNat ≤ 2 := by
  refine ⟨UInt8.ofNat (128 + length % 128), UInt8.ofNat (length / 128), ?_, ?_, ?_⟩
  · rw [groups, if_neg (by omega), if_pos (by omega)]
  · rw [UInt8.toNat_ofNat']
    omega
  · rw [UInt8.toNat_ofNat']
    omega

end CompactLength

namespace LegacyMessage

/-- The common part of a message begins with the header and the number of keys. -/
theorem front_of_toBytes {message : LegacyMessage} {bytes : Bytes}
    (written : message.toBytes = .ok bytes) :
    ∃ rest, bytes = message.header.numRequiredSignatures ::
      message.header.numReadonlySignedAccounts :: message.header.numReadonlyUnsignedAccounts ::
        (CompactLength.groups message.accountKeys.length ++ rest) := by
  simp only [toBytes, Outcome.bind_eq_ok_iff] at written
  obtain ⟨count, counted, _, _, _, _, returned⟩ := written
  cases returned
  obtain ⟨_, rfl⟩ :=
    (CompactLength.encode_eq_ok_iff _ _).mp ((Wire.writeCount_eq_ok_iff _ _ _).mp counted)
  exact ⟨_, rfl⟩

/-- Legacy messages that are written as the same bytes are the same. -/
theorem eq_of_toBytes_eq {first second : LegacyMessage} {bytes : Bytes}
    (firstWritten : first.toBytes = .ok bytes) (secondWritten : second.toBytes = .ok bytes) :
    first = second :=
  (reads_readCommon firstWritten).value_unique (reads_readCommon secondWritten)

end LegacyMessage

namespace V0Message

/-- Checked messages of version 0 that are written as the same bytes are the same. Both have all of
their lookups written. -/
theorem eq_of_toBytes_eq {first second : V0Message} {bytes : Bytes}
    (firstSane : first.sanitize = .ok ()) (secondSane : second.sanitize = .ok ())
    (firstWritten : first.toBytes = .ok bytes) (secondWritten : second.toBytes = .ok bytes) :
    first = second := by
  have firstRead := reads_of_toBytes firstWritten
  have secondRead := reads_of_toBytes secondWritten
  rw [withoutEmptyLookups_of_sanitize firstSane] at firstRead
  rw [withoutEmptyLookups_of_sanitize secondSane] at secondRead
  exact firstRead.value_unique secondRead

end V0Message

namespace Message

/-- Coherent messages of different formats are not written as the same bytes.

Bytes of both would begin with the mark, so the legacy message has 128 signers and, of at most 256
keys, at least as many. Their number takes two bytes. Read as a version 0 message, the first of the
two is its number of readonly keys, which is at least 128, and the second begins its number of keys,
which is then at most two. -/
theorem not_written_alike {legacy : LegacyMessage} {v0 : V0Message} {loaded : Nat} {bytes : Bytes}
    (legacyCoherent : legacy.Coherent 0) (v0Coherent : v0.toLegacyMessage.Coherent loaded)
    (legacyWritten : legacy.toBytes = .ok bytes) : v0.toBytes ≠ .ok bytes := by
  intro v0Written
  obtain ⟨legacyRest, legacySpelled⟩ := LegacyMessage.front_of_toBytes legacyWritten
  simp only [V0Message.toBytes, Outcome.bind_eq_ok_iff] at v0Written
  obtain ⟨common, commonWritten, count, _, parts, _, returned⟩ := v0Written
  obtain ⟨commonRest, rfl⟩ := LegacyMessage.front_of_toBytes commonWritten
  cases returned
  -- Compare the two spellings byte by byte.
  simp only [List.cons_append, List.append_assoc, List.cons.injEq] at legacySpelled
  obtain ⟨mark, _, _, sameByte⟩ := legacySpelled
  have signers : legacy.header.signers = 128 := by
    rw [MessageHeader.signers, ← mark]
    rfl
  have legacyAtLeast : 128 ≤ legacy.accountKeys.length := by
    have := legacyCoherent.described
    omega
  have legacyAtMost : legacy.accountKeys.length ≤ 256 := legacyCoherent.bounded
  obtain ⟨low, high, legacyCount, lowLarge, highSmall⟩ :=
    CompactLength.groups_of_byte_range legacyAtLeast legacyAtMost
  rw [legacyCount, List.cons_append, List.cons.injEq] at sameByte
  obtain ⟨rfl, sameCount⟩ := sameByte
  have v0AtLeast : 128 ≤ v0.accountKeys.length := by
    have described : v0.header.signers + v0.header.numReadonlyUnsignedAccounts.toNat
        ≤ v0.accountKeys.length := v0Coherent.described
    omega
  have v0AtMost : v0.accountKeys.length ≤ 256 := by
    have := v0Coherent.bounded
    omega
  obtain ⟨v0Low, v0High, v0Count, v0LowLarge, -⟩ :=
    CompactLength.groups_of_byte_range v0AtLeast v0AtMost
  rw [v0Count] at sameCount
  simp only [List.cons_append, List.cons.injEq] at sameCount
  have countLow : v0Low = high := sameCount.1
  rw [countLow] at v0LowLarge
  omega

/-- Messages that pass their checks and are written as the same bytes are the same. -/
theorem eq_of_toBytes_eq {first second : Message} {bytes : Bytes}
    (firstSane : first.sanitize = .ok ()) (secondSane : second.sanitize = .ok ())
    (firstWritten : first.toBytes = .ok bytes) (secondWritten : second.toBytes = .ok bytes) :
    first = second := by
  cases first with
  | legacy first =>
    cases second with
    | legacy second => rw [LegacyMessage.eq_of_toBytes_eq firstWritten secondWritten]
    | v0 second =>
      have firstCoherent := (LegacyMessage.sanitize_eq_ok_iff first).mp firstSane
      have secondCoherent := ((V0Message.sanitize_eq_ok_iff second).mp secondSane).1
      exact absurd secondWritten (not_written_alike firstCoherent secondCoherent firstWritten)
  | v0 first =>
    cases second with
    | legacy second =>
      have firstCoherent := ((V0Message.sanitize_eq_ok_iff first).mp firstSane).1
      have secondCoherent := (LegacyMessage.sanitize_eq_ok_iff second).mp secondSane
      exact absurd firstWritten (not_written_alike secondCoherent firstCoherent secondWritten)
    | v0 second =>
      rw [V0Message.eq_of_toBytes_eq firstSane secondSane firstWritten secondWritten]

end Message

namespace Transaction

/-- No two messages that pass their checks share their bytes. So what signers are given for such a
message is covered by the signatures of a transaction only if that is a transaction of the same
message. -/
theorem signed_bytes_identify [Base58.Converter 32 44] :
    (∀ (first second : Message) (bytes : Bytes), first.sanitize = .ok () →
      second.sanitize = .ok () → first.toBytes = .ok bytes → second.toBytes = .ok bytes →
        first = second) ∧
    ∀ (message : Message) (transaction : Transaction) (data : Bytes), message.sanitize = .ok () →
      transaction.message.sanitize = .ok () → dataToSign message = .ok data →
        transaction.messageData = .ok data → transaction.message = message := by
  constructor
  · intro first second bytes firstSane secondSane firstWritten secondWritten
    exact Message.eq_of_toBytes_eq firstSane secondSane firstWritten secondWritten
  · intro message transaction data sane transactionSane signed covered
    have written : message.toBytes = .ok data := (Outcome.mapError_eq_ok_iff _ _ _).mp signed
    have coveredWritten : transaction.message.toBytes = .ok data :=
      (Outcome.mapError_eq_ok_iff _ _ _).mp covered
    exact Message.eq_of_toBytes_eq transactionSane sane coveredWritten written

end Transaction

/-- A message of 128 signers, one of which is writable. -/
def crowdedMessage : Message :=
  .legacy
    { header := ⟨128, 127, 1⟩
      accountKeys :=
        (List.range 128).map (fun number => ⟨FixedList.ofNat 32 (number + 1)⟩) ++ [.numbered 200]
      recentBlockhash := Hash.zero
      instructions := [⟨128, (List.range 128).map UInt8.ofNat, []⟩] }

/-- The message compiled from the sample has the bytes of the version 0 message of the sample, so it
is that one. The message of 128 signers passes its check, and its bytes begin with the mark of
version 0; its signers are given what the signatures of a transaction of it cover. -/
theorem Transaction.signed_bytes_identify_sample :
    (∃ message bytes,
      Message.compile (some (.numbered 1)) sampleInstructions Hash.zero (some sampleTable) =
        .ok message ∧
      message.sanitize = .ok () ∧ sampleV0.sanitize = .ok () ∧
      message.toBytes = .ok bytes ∧ sampleV0.toBytes = .ok bytes ∧ message = .v0 sampleV0) ∧
    ∃ bytes, crowdedMessage.sanitize = .ok () ∧
      dataToSign crowdedMessage = .ok (versionMark :: bytes) ∧
      (unsigned crowdedMessage).messageData = .ok (versionMark :: bytes) ∧
      (unsigned crowdedMessage).message = crowdedMessage := by
  constructor
  · have sampleSane : sampleV0.sanitize = .ok () := by decide
    have evaluated :
        ((Message.compile (some (.numbered 1)) sampleInstructions Hash.zero
          (some sampleTable)).toOption.map fun message => (message.sanitize, message.toBytes)) =
            some (.ok (), sampleV0.toBytes) := by decide +kernel
    obtain ⟨message, compiled, checked⟩ := Option.map_eq_some_iff.mp evaluated
    obtain ⟨sane, same⟩ := Prod.mk.inj checked
    exact ⟨message, _, Outcome.toOption_eq_some_iff.mp compiled, sane, sampleSane, same.trans rfl,
      rfl, signed_bytes_identify.1 _ (.v0 sampleV0) _ sane sampleSane (same.trans rfl) rfl⟩
  · have crowdedSane : crowdedMessage.sanitize = .ok () := by decide +kernel
    have marked : crowdedMessage.toBytes.toOption.bind List.head? = some versionMark := by
      decide +kernel
    obtain ⟨spelled, written, beginning⟩ := Option.bind_eq_some_iff.mp marked
    obtain ⟨bytes, rfl⟩ := List.head?_eq_some_iff.mp beginning
    have signed : dataToSign crowdedMessage = .ok (versionMark :: bytes) :=
      (Outcome.mapError_eq_ok_iff _ _ _).mpr (Outcome.toOption_eq_some_iff.mp written)
    have covered : (unsigned crowdedMessage).messageData = .ok (versionMark :: bytes) :=
      (Outcome.mapError_eq_ok_iff _ _ _).mpr (Outcome.toOption_eq_some_iff.mp written)
    exact ⟨bytes, crowdedSane, signed, covered, signed_bytes_identify.2 _
      (unsigned crowdedMessage) _ crowdedSane crowdedSane signed covered⟩

end Transact
