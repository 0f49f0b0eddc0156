import Transact.Proofs.CanonicalReading
import Transact.Proofs.WrittenMessages

/-!
# Read messages are as they would be written

Every part of a message is read only from the bytes that are written for it: counts in their
shortest spelling, and parts one behind the other without gaps. A legacy message is therefore read
from nothing but its own writing (`LegacyMessage.canonical_readCommon`).

A version 0 message has two further spellings, both in its lookups. The input may end where they
should begin (`V0Message.EndsAfterInstructions`), and it may hold lookups that select nothing
(`V0Message.HasEmptyLookup`). What a version 0 message is read from, `V0Message.eq_of_read`, tells
these apart, and `Message.toBytes_eq_front_iff` says which messages are written as the bytes they
were read from.
-/

namespace Transact

open Reader (Canonical)

namespace Wire

/-- Exactly the counts within the limit of compact lengths are written. -/
theorem exists_writeCount_iff (tooLarge : MessageError) (count : Nat) :
    (∃ bytes, writeCount tooLarge count = .ok bytes) ↔ count ≤ CompactLength.maximum := by
  simp only [writeCount_eq_ok_iff, CompactLength.encode_eq_ok_iff, exists_and_left,
    exists_eq, and_true]

/-- A count is taken from its only spelling. -/
theorem canonical_readCount (tooLarge : MessageError) :
    Canonical readCount fun count bytes => writeCount tooLarge count = .ok bytes := by
  intro input count rest taken
  unfold readCount at taken
  split at taken
  · rename_i answer decoded
    cases taken
    obtain ⟨bytes, encoded, rfl⟩ := CompactLength.canonical_decode decoded
    exact ⟨bytes, (writeCount_eq_ok_iff _ _ _).mpr encoded, rfl⟩
  · cases taken
  · cases taken

/-- A byte string is taken from its writing. -/
theorem canonical_readBytes (tooLarge : MessageError) :
    Canonical readBytes fun value bytes => writeBytes tooLarge value = .ok bytes := by
  intro input value rest taken
  obtain ⟨⟨count, others⟩, counted, held⟩ := (Outcome.bind_eq_ok_iff _ _ _).mp taken
  obtain ⟨countBytes, countWritten, rfl⟩ := canonical_readCount tooLarge counted
  obtain ⟨_, ⟨rfl, rfl⟩, rfl⟩ := Reader.canonical_bytes _ _ held
  have written : writeBytes tooLarge value = .ok (countBytes ++ value) := by
    rw [writeBytes, countWritten]
    rfl
  exact ⟨_, written, (List.append_assoc _ _ _).symm⟩

/-- An address is taken from its bytes. -/
theorem canonical_readAddress :
    Canonical readAddress fun address bytes => address.toBytes = bytes := by
  apply Reader.canonical_block_map MessageError.bufferTooSmall Address.mk
  exact fun _ => rfl

/-- A hash is taken from its bytes. -/
theorem canonical_readHash : Canonical readHash fun hash bytes => hash.toBytes = bytes := by
  apply Reader.canonical_block_map MessageError.bufferTooSmall Hash.mk
  exact fun _ => rfl

/-- Items that are each taken from their writing are taken from what is written for all of them. -/
theorem canonical_list {α : Type} {read : Reader MessageError α}
    {write : α → Except MessageError Bytes}
    (each : Canonical read fun item bytes => write item = .ok bytes) (count : Nat) :
    Canonical (Reader.many read count) fun items bytes =>
      ∃ parts, items.toList.mapM write = .ok parts ∧ parts.flatten = bytes := by
  intro input items rest taken
  obtain ⟨bytes, ⟨parts, written, flat⟩, spelled⟩ := Reader.canonical_many each count taken
  exact ⟨bytes, ⟨parts, (Outcome.mapM_eq_ok_iff _ _ _).mpr written, flat⟩, spelled⟩

end Wire

open Wire

/-- A header is taken from its bytes. -/
theorem MessageHeader.canonical_read :
    Canonical MessageHeader.read fun header bytes => header.toBytes = bytes := by
  intro input header rest taken
  unfold MessageHeader.read at taken
  split at taken
  · cases taken
    exact ⟨_, rfl, rfl⟩
  · cases taken

/-- An instruction is taken from its writing. -/
theorem CompiledInstruction.canonical_read :
    Canonical CompiledInstruction.read fun instruction bytes =>
      instruction.toBytes = .ok bytes := by
  intro input instruction rest taken
  simp only [CompiledInstruction.read, Outcome.bind_eq_ok_iff, Prod.exists] at taken
  obtain ⟨program, _, programTaken, accounts, _, accountsTaken, data, _, dataTaken, returned⟩ :=
    taken
  cases returned
  obtain ⟨_, rfl, rfl⟩ := Reader.canonical_byte _ programTaken
  obtain ⟨accountBytes, accountsWritten, rfl⟩ :=
    canonical_readBytes .instructionAccountsTooLarge accountsTaken
  obtain ⟨dataBytes, dataWritten, rfl⟩ := canonical_readBytes .instructionDataTooLarge dataTaken
  have written : toBytes ⟨program, accounts, data⟩ =
      .ok (program :: (accountBytes ++ dataBytes)) := by
    rw [toBytes, accountsWritten, dataWritten]
    rfl
  exact ⟨_, written, by simp⟩

/-- A lookup is taken from its writing. -/
theorem TableLookup.canonical_read :
    Canonical TableLookup.read fun lookup bytes => lookup.toBytes = .ok bytes := by
  intro input lookup rest taken
  simp only [TableLookup.read, Outcome.bind_eq_ok_iff, Prod.exists] at taken
  obtain ⟨tableKey, _, keyTaken, writable, _, writableTaken, readonly, _, readonlyTaken,
    returned⟩ := taken
  cases returned
  obtain ⟨_, rfl, rfl⟩ := canonical_readAddress keyTaken
  obtain ⟨writableBytes, writableWritten, rfl⟩ :=
    canonical_readBytes .addressTableLookupTooLarge writableTaken
  obtain ⟨readonlyBytes, readonlyWritten, rfl⟩ :=
    canonical_readBytes .addressTableLookupTooLarge readonlyTaken
  have written : toBytes ⟨tableKey, writable, readonly⟩ =
      .ok (tableKey.toBytes ++ writableBytes ++ readonlyBytes) := by
    rw [toBytes, writableWritten, readonlyWritten]
    rfl
  exact ⟨_, written, by simp⟩

/-- What both formats have in common is taken from its writing. -/
theorem LegacyMessage.canonical_readCommon :
    Canonical readCommon fun message bytes => message.toBytes = .ok bytes := by
  intro input message rest taken
  simp only [readCommon, Outcome.bind_eq_ok_iff, Prod.exists] at taken
  obtain ⟨header, _, headerTaken, keyCount, _, keysCounted, keys, _, keysTaken, hash, _, hashTaken,
    instructionCount, _, instructionsCounted, instructions, _, instructionsTaken, returned⟩ := taken
  cases returned
  obtain ⟨_, rfl, rfl⟩ := MessageHeader.canonical_read headerTaken
  obtain ⟨keyCountBytes, keyCountWritten, rfl⟩ :=
    canonical_readCount .tooManyAccountKeys keysCounted
  obtain ⟨_, rfl, rfl⟩ := Reader.canonical_many_map canonical_readAddress _ keysTaken
  obtain ⟨_, rfl, rfl⟩ := canonical_readHash hashTaken
  obtain ⟨instructionCountBytes, instructionCountWritten, rfl⟩ :=
    canonical_readCount .tooManyInstructions instructionsCounted
  obtain ⟨_, ⟨instructionParts, instructionsWritten, rfl⟩, rfl⟩ :=
    canonical_list CompiledInstruction.canonical_read _ instructionsTaken
  refine ⟨header.toBytes ++ (keyCountBytes ++ ((keys.toList.map Address.toBytes).flatten ++
    (hash.toBytes ++ (instructionCountBytes ++ instructionParts.flatten)))), ?_, by simp⟩
  simp only [toBytes, keys.length_toList, instructions.length_toList, keyCountWritten,
    instructionCountWritten, instructionsWritten, bind, Except.bind]
  rfl

namespace TableLookup

/-- Lookups are taken from their writing, or from the end of the input. -/
theorem eq_of_readAll {input rest : Bytes} {lookups : List TableLookup}
    (taken : readAll input = .ok (lookups, rest)) :
    (input = [] ∧ lookups = [] ∧ rest = []) ∨
      ∃ count parts, writeCount .tooManyAddressTableLookups lookups.length = .ok count ∧
        lookups.mapM TableLookup.toBytes = .ok parts ∧
        input = count ++ (parts.flatten ++ rest) := by
  unfold readAll at taken
  split at taken
  · rename_i ended
    cases taken
    exact Or.inl ⟨List.isEmpty_iff.mp ended, rfl, List.isEmpty_iff.mp ended⟩
  · simp only [Outcome.bind_eq_ok_iff, Prod.exists] at taken
    obtain ⟨count, _, counted, items, _, itemsTaken, returned⟩ := taken
    cases returned
    obtain ⟨countBytes, countWritten, rfl⟩ :=
      canonical_readCount .tooManyAddressTableLookups counted
    obtain ⟨_, ⟨parts, written, rfl⟩, rfl⟩ := canonical_list canonical_read _ itemsTaken
    rw [← items.length_toList] at countWritten
    exact Or.inr ⟨countBytes, parts, countWritten, written, rfl⟩

/-- Lookups that were read are few enough for a count, and each of them can be written. -/
theorem writable_of_readAll {input rest : Bytes} {lookups : List TableLookup}
    (taken : readAll input = .ok (lookups, rest)) :
    lookups.length ≤ CompactLength.maximum ∧
      ∀ lookup ∈ lookups, ∃ bytes, lookup.toBytes = .ok bytes := by
  obtain ⟨_, rfl, _⟩ | ⟨count, parts, counted, written, _⟩ := eq_of_readAll taken
  · exact ⟨Nat.zero_le _, by simp⟩
  · exact ⟨(exists_writeCount_iff _ _).mp ⟨count, counted⟩,
      (Outcome.exists_mapM_eq_ok_iff _ _).mp ⟨parts, written⟩⟩

end TableLookup

namespace V0Message

/-- The input is the mark and a message's header, keys, block hash and instructions, and it ends
there. The lookups are absent. -/
def EndsAfterInstructions (input : Bytes) : Prop :=
  ∃ rest common, input = versionMark :: rest ∧ LegacyMessage.readCommon rest = .ok (common, [])

/-- Some lookup selects nothing. -/
def HasEmptyLookup (message : V0Message) : Prop :=
  ∃ lookup ∈ message.addressTableLookups, lookup.isEmpty = true

/-- Leaving out the lookups that select nothing changes nothing exactly when there are none. -/
theorem withoutEmptyLookups_eq_iff (message : V0Message) :
    message.withoutEmptyLookups = message ↔ ¬message.HasEmptyLookup := by
  obtain ⟨common, lookups⟩ := message
  simp only [withoutEmptyLookups, HasEmptyLookup, mk.injEq, true_and, List.filter_eq_self,
    Bool.not_eq_true', not_exists, not_and, Bool.not_eq_true]

/-- A version 0 message is written as the mark, the common part, and the lookups that select
something behind their count. -/
theorem toBytes_eq_ok_iff (message : V0Message) (bytes : Bytes) :
    message.toBytes = .ok bytes ↔
      ∃ common count parts, message.toLegacyMessage.toBytes = .ok common ∧
        writeCount .tooManyAddressTableLookups message.writtenLookups.length = .ok count ∧
        message.writtenLookups.mapM TableLookup.toBytes = .ok parts ∧
        bytes = versionMark :: (common ++ (count ++ parts.flatten)) := by
  simp only [toBytes, Outcome.bind_eq_ok_iff]
  constructor
  · rintro ⟨common, commonWritten, count, counted, parts, written, returned⟩
    cases returned
    exact ⟨common, count, parts, commonWritten, counted, written, rfl⟩
  · rintro ⟨common, count, parts, commonWritten, counted, written, rfl⟩
    exact ⟨common, commonWritten, count, counted, parts, written, rfl⟩

/-- A version 0 message is read from the mark, the writing of its common part, and what its lookups
are read from. -/
theorem eq_of_read {input rest : Bytes} {message : V0Message}
    (taken : V0Message.read input = .ok (message, rest)) :
    ∃ common others, message.toLegacyMessage.toBytes = .ok common ∧
      input = versionMark :: (common ++ others) ∧
      TableLookup.readAll others = .ok (message.addressTableLookups, rest) := by
  simp only [V0Message.read, Outcome.bind_eq_ok_iff, Outcome.refuse_eq_ok_iff, Prod.exists]
    at taken
  obtain ⟨first, _, firstTaken, _, supported, common, _, commonTaken, lookups, _, lookupsTaken,
    returned⟩ := taken
  cases returned
  obtain ⟨_, rfl, rfl⟩ := Reader.canonical_byte _ firstTaken
  obtain ⟨commonBytes, commonWritten, rfl⟩ := LegacyMessage.canonical_readCommon commonTaken
  have marked : first = versionMark := by
    have zero : first - versionMark = 0 := not_not.mp supported
    calc first = first - versionMark + versionMark := (UInt8.sub_add_cancel first versionMark).symm
      _ = versionMark := by rw [zero, UInt8.zero_add]
  subst marked
  exact ⟨commonBytes, _, commonWritten, rfl, lookupsTaken⟩

/-- A version 0 message is read off the front of its input, of which the mark is a part. -/
theorem front_of_read {input rest : Bytes} {message : V0Message}
    (taken : V0Message.read input = .ok (message, rest)) :
    ∃ front, input = versionMark :: (front ++ rest) := by
  obtain ⟨common, others, _, rfl, lookupsTaken⟩ := eq_of_read taken
  obtain ⟨rfl, _, rfl⟩ | ⟨count, parts, _, _, rfl⟩ := TableLookup.eq_of_readAll lookupsTaken
  · exact ⟨common, rfl⟩
  · exact ⟨common ++ (count ++ parts.flatten), by simp⟩

/-- The lookups are absent exactly where nothing follows the common part. -/
theorem endsAfterInstructions_iff {message : LegacyMessage} {common others : Bytes}
    (written : message.toBytes = .ok common) :
    EndsAfterInstructions (versionMark :: (common ++ others)) ↔ others = [] := by
  have commonTaken := LegacyMessage.reads_readCommon written others
  constructor
  · rintro ⟨rest, other, spelled, taken⟩
    obtain ⟨_, rfl⟩ := List.cons.inj spelled
    rw [commonTaken] at taken
    cases taken
    rfl
  · rintro rfl
    exact ⟨_, message, rfl, commonTaken⟩

/-- A version 0 message that was read without its lookups is written with a count of zero for
them. -/
theorem toBytes_of_endsAfterInstructions {input rest : Bytes} {message : V0Message}
    (taken : V0Message.read input = .ok (message, rest)) (ends : EndsAfterInstructions input) :
    rest = [] ∧ ¬message.HasEmptyLookup ∧ message.toBytes = .ok (input ++ [0]) := by
  obtain ⟨common, others, commonWritten, rfl, lookupsTaken⟩ := eq_of_read taken
  obtain rfl := (endsAfterInstructions_iff commonWritten).mp ends
  obtain ⟨absent, rfl⟩ := Prod.mk.inj (Except.ok.inj lookupsTaken)
  have nothing : message.writtenLookups = [] := by
    rw [writtenLookups, ← absent, List.filter_nil]
  refine ⟨rfl, ?_, ?_⟩
  · rintro ⟨lookup, member, _⟩
    rw [← absent] at member
    cases member
  · rw [toBytes_eq_ok_iff, nothing]
    exact ⟨common, [0], [], commonWritten, rfl, rfl, by simp⟩

/-- A version 0 message that was read with its lookups, each of which selects something, is written
as it was read. -/
theorem toBytes_of_not_endsAfterInstructions {input rest : Bytes} {message : V0Message}
    (taken : V0Message.read input = .ok (message, rest)) (goesOn : ¬EndsAfterInstructions input)
    (selecting : ¬message.HasEmptyLookup) :
    ∃ bytes, message.toBytes = .ok bytes ∧ input = bytes ++ rest := by
  obtain ⟨common, others, commonWritten, rfl, lookupsTaken⟩ := eq_of_read taken
  have present : others ≠ [] := by rwa [endsAfterInstructions_iff commonWritten] at goesOn
  have kept : message.writtenLookups = message.addressTableLookups :=
    congrArg addressTableLookups ((withoutEmptyLookups_eq_iff message).mpr selecting)
  obtain ⟨ended, _⟩ | ⟨count, parts, counted, written, rfl⟩ :=
    TableLookup.eq_of_readAll lookupsTaken
  · exact absurd ended present
  · refine ⟨versionMark :: (common ++ (count ++ parts.flatten)), ?_, by simp⟩
    rw [toBytes_eq_ok_iff, kept]
    exact ⟨common, count, parts, commonWritten, counted, written, rfl⟩

/-- Every version 0 message that was read can be written, since leaving out lookups shortens their
list. -/
theorem exists_toBytes_of_read {input rest : Bytes} {message : V0Message}
    (taken : V0Message.read input = .ok (message, rest)) :
    ∃ bytes, message.toBytes = .ok bytes := by
  obtain ⟨common, others, commonWritten, _, lookupsTaken⟩ := eq_of_read taken
  obtain ⟨few, each⟩ := TableLookup.writable_of_readAll lookupsTaken
  have fewer : message.writtenLookups.length ≤ CompactLength.maximum :=
    Nat.le_trans (List.length_filter_le _ _) few
  obtain ⟨count, counted⟩ := (exists_writeCount_iff .tooManyAddressTableLookups _).mpr fewer
  obtain ⟨parts, written⟩ := (Outcome.exists_mapM_eq_ok_iff TableLookup.toBytes
    message.writtenLookups).mpr fun lookup member => each lookup (List.mem_of_mem_filter member)
  exact ⟨_, (toBytes_eq_ok_iff _ _).mpr
    ⟨common, count, parts, commonWritten, counted, written, rfl⟩⟩

end V0Message

namespace Message

/-- What is read from an input that begins with a mark is of version 0. -/
theorem eq_v0_of_read {input rest : Bytes} {first : UInt8} {message : Message}
    (head : input.head? = some first) (marked : hasVersionMark first = true)
    (taken : Message.read input = .ok (message, rest)) :
    ∃ v0, message = .v0 v0 ∧ V0Message.read input = .ok (v0, rest) := by
  rw [read_of_marked head marked] at taken
  obtain ⟨⟨v0, left⟩, v0Taken, returned⟩ := (Outcome.map_eq_ok_iff _ _ _).mp taken
  cases returned
  exact ⟨v0, rfl, v0Taken⟩

/-- What is read from an input that begins without a mark is a legacy message. -/
theorem eq_legacy_of_read {input rest : Bytes} {first : UInt8} {message : Message}
    (head : input.head? = some first) (unmarked : hasVersionMark first = false)
    (taken : Message.read input = .ok (message, rest)) :
    ∃ legacy, message = .legacy legacy ∧
      LegacyMessage.readCommon input = .ok (legacy, rest) := by
  rw [read_of_unmarked head unmarked] at taken
  obtain ⟨⟨legacy, left⟩, legacyTaken, returned⟩ := (Outcome.map_eq_ok_iff _ _ _).mp taken
  cases returned
  exact ⟨legacy, rfl, legacyTaken⟩

/-- The first byte of an input tells the format of the message that is read from it. -/
theorem eq_of_read {input rest : Bytes} {message : Message}
    (taken : Message.read input = .ok (message, rest)) :
    (∃ legacy, message = .legacy legacy ∧ LegacyMessage.readCommon input = .ok (legacy, rest)) ∨
      ∃ v0, message = .v0 v0 ∧ V0Message.read input = .ok (v0, rest) := by
  cases input with
  | nil => cases taken
  | cons first others =>
    cases marked : hasVersionMark first with
    | true => exact Or.inr (eq_v0_of_read List.head?_cons marked taken)
    | false => exact Or.inl (eq_legacy_of_read List.head?_cons marked taken)

/-- A message is read off the front of its input. -/
theorem front_of_read {input rest : Bytes} {message : Message}
    (taken : Message.read input = .ok (message, rest)) : ∃ front, input = front ++ rest := by
  obtain ⟨legacy, _, legacyTaken⟩ | ⟨v0, _, v0Taken⟩ := eq_of_read taken
  · obtain ⟨front, _, spelled⟩ := LegacyMessage.canonical_readCommon legacyTaken
    exact ⟨front, spelled⟩
  · obtain ⟨front, rfl⟩ := V0Message.front_of_read v0Taken
    exact ⟨versionMark :: front, rfl⟩

/-- A message that was read is written as the bytes it was read from, unless it is of version 0 and
was read without its lookups or with one that selects nothing. -/
theorem toBytes_eq_front_iff {front rest : Bytes} {message : Message}
    (taken : Message.read (front ++ rest) = .ok (message, rest)) :
    message.toBytes = .ok front ↔ ¬∃ v0, message = .v0 v0 ∧
      (V0Message.EndsAfterInstructions (front ++ rest) ∨ v0.HasEmptyLookup) := by
  obtain ⟨legacy, rfl, legacyTaken⟩ | ⟨v0, rfl, v0Taken⟩ := eq_of_read taken
  · obtain ⟨bytes, written, spelled⟩ := LegacyMessage.canonical_readCommon legacyTaken
    obtain rfl := List.append_cancel_right spelled
    exact iff_of_true written nofun
  · simp only [Message.v0.injEq, exists_eq_left']
    constructor
    · rintro written (ends | empty)
      · obtain ⟨rfl, _, longer⟩ := V0Message.toBytes_of_endsAfterInstructions v0Taken ends
        have same : front = front ++ [] ++ [0] := Except.ok.inj (written.symm.trans longer)
        simp at same
      · -- What is written is read back without the empty lookups, but they were read.
        have readBack := V0Message.reads_of_toBytes written rest
        rw [v0Taken] at readBack
        have kept : v0 = v0.withoutEmptyLookups := (Prod.mk.inj (Except.ok.inj readBack)).1
        exact (V0Message.withoutEmptyLookups_eq_iff v0).mp kept.symm empty
    · intro unexceptional
      obtain ⟨goesOn, selecting⟩ := not_or.mp unexceptional
      obtain ⟨bytes, written, spelled⟩ :=
        V0Message.toBytes_of_not_endsAfterInstructions v0Taken goesOn selecting
      obtain rfl := List.append_cancel_right spelled
      exact written

end Message

end Transact
