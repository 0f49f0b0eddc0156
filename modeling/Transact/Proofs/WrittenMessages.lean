import Transact.Message.Wire
import Transact.Proofs.Outcomes
import Transact.Proofs.Reading

/-!
# Written messages are read back

Every part of a message is read from what was written for it. A part of variable size stands behind
its count, so its reader knows where it ends, and the parts of a message follow one another without
gaps.

Two things are not read back as they were written. Lookups that select nothing are left out
(`Message.withoutEmptyLookups`). And a legacy message is recognized by its first byte, the number of
its signers, only when that number is below 128; any other is taken for the mark of a version. The
main statements are `Message.reads_of_toBytes`, about the messages that are recognized
(`Message.IsRecognizable`), and `Message.ofBytes_eq_ok_iff_of_toBytes`, about all of them.
-/

namespace Transact

open Reader (Reads)

namespace Wire

/-- A count is written exactly when a compact length can be, and then as one. -/
theorem writeCount_eq_ok_iff (tooLarge : MessageError) (count : Nat) (bytes : Bytes) :
    writeCount tooLarge count = .ok bytes ↔ CompactLength.encode count = .ok bytes := by
  unfold writeCount
  cases CompactLength.encode count with
  | error fault => simp only [reduceCtorEq]
  | ok encoded => simp only [Except.ok.injEq]

/-- A count is read from its writing. -/
theorem reads_count {tooLarge : MessageError} {count : Nat} {bytes : Bytes}
    (written : writeCount tooLarge count = .ok bytes) : Reads readCount bytes count := by
  intro tail
  rw [readCount,
    CompactLength.reads_of_encode ((writeCount_eq_ok_iff tooLarge count bytes).mp written) tail]

/-- A byte string is read from its writing. -/
theorem reads_bytes {tooLarge : MessageError} {value bytes : Bytes}
    (written : writeBytes tooLarge value = .ok bytes) : Reads readBytes bytes value := by
  obtain ⟨count, counted, returned⟩ := (Outcome.bind_eq_ok_iff _ _ _).mp written
  cases returned
  intro tail
  rw [readBytes, List.append_assoc, reads_count counted]
  exact Reader.reads_bytes MessageError.bufferTooSmall value tail

/-- An address is read from its bytes. -/
theorem reads_address (address : Address) : Reads readAddress address.toBytes address :=
  Reader.reads_block_map MessageError.bufferTooSmall Address.mk address.bytes

/-- A hash is read from its bytes. -/
theorem reads_hash (hash : Hash) : Reads readHash hash.toBytes hash :=
  Reader.reads_block_map MessageError.bufferTooSmall Hash.mk hash.bytes

/-- Items that are each read from their writing are read from all writings together. -/
theorem reads_list {α : Type} {write : α → Except MessageError Bytes} {read : Reader MessageError α}
    {items : List α} {parts : List Bytes}
    (each : ∀ item bytes, write item = .ok bytes → Reads read bytes item)
    (written : items.mapM write = .ok parts) :
    Reads (Reader.many read items.length) parts.flatten ⟨items, rfl⟩ :=
  Reader.reads_many
    (((Outcome.mapM_eq_ok_iff _ _ _).mp written).flip.imp fun bytes item => each item bytes)

end Wire

open Wire

/-- A header is read from its bytes. -/
theorem MessageHeader.reads_toBytes (header : MessageHeader) :
    Reads MessageHeader.read header.toBytes header :=
  fun _ => rfl

/-- An instruction is read from its writing. -/
theorem CompiledInstruction.reads_of_toBytes (instruction : CompiledInstruction) (bytes : Bytes)
    (written : instruction.toBytes = .ok bytes) :
    Reads CompiledInstruction.read bytes instruction := by
  simp only [toBytes, Outcome.bind_eq_ok_iff] at written
  obtain ⟨accounts, accountsWritten, data, dataWritten, returned⟩ := written
  cases returned
  intro tail
  rw [CompiledInstruction.read, List.cons_append, List.append_assoc]
  simp only [Reader.byte, reads_bytes accountsWritten _, reads_bytes dataWritten _, bind,
    Except.bind]
  rfl

/-- A lookup is read from its writing. -/
theorem TableLookup.reads_of_toBytes (lookup : TableLookup) (bytes : Bytes)
    (written : lookup.toBytes = .ok bytes) : Reads TableLookup.read bytes lookup := by
  simp only [toBytes, Outcome.bind_eq_ok_iff] at written
  obtain ⟨writable, writableWritten, readonly, readonlyWritten, returned⟩ := written
  cases returned
  intro tail
  rw [TableLookup.read, List.append_assoc, List.append_assoc]
  simp only [reads_address lookup.tableKey _, reads_bytes writableWritten _,
    reads_bytes readonlyWritten _, bind, Except.bind]
  rfl

/-- The lookups are read from their writing. There is a count even where there are no lookups, so
the input has never ended before them. -/
theorem TableLookup.reads_readAll {lookups : List TableLookup} {count : Bytes}
    {parts : List Bytes}
    (counted : writeCount .tooManyAddressTableLookups lookups.length = .ok count)
    (written : lookups.mapM TableLookup.toBytes = .ok parts) :
    Reads TableLookup.readAll (count ++ parts.flatten) lookups := by
  have present : ∀ rest, (count ++ rest).isEmpty = false := by
    intro rest
    obtain ⟨_, rfl⟩ :=
      (CompactLength.encode_eq_ok_iff _ _).mp ((writeCount_eq_ok_iff _ _ _).mp counted)
    exact List.isEmpty_eq_false_iff.mpr fun nothing =>
      CompactLength.groups_ne_nil _ (List.append_eq_nil_iff.mp nothing).1
  intro tail
  rw [TableLookup.readAll, List.append_assoc, present]
  simp only [Bool.false_eq_true, if_false, reads_count counted _,
    reads_list TableLookup.reads_of_toBytes written _, bind, Except.bind]
  rfl

namespace LegacyMessage

/-- What both formats have in common is read from its writing, whatever its first byte. -/
theorem reads_readCommon {message : LegacyMessage} {bytes : Bytes}
    (written : message.toBytes = .ok bytes) : Reads readCommon bytes message := by
  simp only [toBytes, Outcome.bind_eq_ok_iff] at written
  obtain ⟨keyCount, keysCounted, instructionCount, instructionsCounted, instructions,
    instructionsWritten, returned⟩ := written
  cases returned
  have keys := Reader.reads_many_map reads_address message.accountKeys
  intro tail
  rw [readCommon]
  simp only [List.append_assoc, MessageHeader.reads_toBytes message.header _,
    reads_count keysCounted _, keys _, reads_hash message.recentBlockhash _,
    reads_count instructionsCounted _,
    reads_list CompiledInstruction.reads_of_toBytes instructionsWritten _, bind, Except.bind]
  rfl

/-- The first byte of a written legacy message is the number of its signers. -/
theorem head?_of_toBytes {message : LegacyMessage} {bytes : Bytes}
    (written : message.toBytes = .ok bytes) :
    bytes.head? = some message.header.numRequiredSignatures := by
  simp only [toBytes, Outcome.bind_eq_ok_iff] at written
  obtain ⟨keyCount, _, instructionCount, _, instructions, _, returned⟩ := written
  cases returned
  rfl

end LegacyMessage

namespace V0Message

/-- The message without the lookups that select nothing. -/
def withoutEmptyLookups (message : V0Message) : V0Message :=
  { message with
    addressTableLookups := message.addressTableLookups.filter fun lookup => !lookup.isEmpty }

/-- A version 0 message is read from its writing, without its empty lookups. -/
theorem reads_of_toBytes {message : V0Message} {bytes : Bytes}
    (written : message.toBytes = .ok bytes) :
    Reads V0Message.read bytes message.withoutEmptyLookups := by
  simp only [toBytes, Outcome.bind_eq_ok_iff] at written
  obtain ⟨common, commonWritten, count, counted, lookups, lookupsWritten, returned⟩ := written
  cases returned
  -- The mark is that of version 0, so both checks on the first byte pass.
  have marked : (!hasVersionMark versionMark) = false := by decide
  have supported : ¬versionMark - versionMark ≠ 0 := by decide
  have rest := TableLookup.reads_readAll counted lookupsWritten
  intro tail
  rw [V0Message.read, List.cons_append, List.append_assoc]
  simp only [Reader.byte, marked, Bool.false_eq_true, supported, if_false,
    LegacyMessage.reads_readCommon commonWritten _, rest _, bind, Except.bind, pure, Except.pure]
  rfl

/-- The first byte of a written version 0 message is the mark. -/
theorem head?_of_toBytes {message : V0Message} {bytes : Bytes}
    (written : message.toBytes = .ok bytes) : bytes.head? = some versionMark := by
  simp only [toBytes, Outcome.bind_eq_ok_iff] at written
  obtain ⟨common, _, count, _, lookups, _, returned⟩ := written
  cases returned
  rfl

end V0Message

namespace Message

/-- A first byte has a mark when it is 128 or above. -/
theorem hasVersionMark_iff (first : UInt8) : hasVersionMark first = true ↔ 128 ≤ first.toNat := by
  rw [hasVersionMark, decide_eq_true_iff, ge_iff_le, UInt8.le_iff_toNat_le]
  rfl

/-- An input that begins with a mark is read as a version 0 message. -/
theorem read_of_marked {input : Bytes} {first : UInt8} (head : input.head? = some first)
    (marked : hasVersionMark first = true) :
    Message.read input = (V0Message.read input).map fun (message, rest) => (.v0 message, rest) := by
  obtain ⟨rest, rfl⟩ := List.head?_eq_some_iff.mp head
  rw [Message.read, if_pos marked]

/-- An input that begins without a mark is read as a legacy message. -/
theorem read_of_unmarked {input : Bytes} {first : UInt8} (head : input.head? = some first)
    (unmarked : hasVersionMark first = false) :
    Message.read input =
      (LegacyMessage.readCommon input).map fun (message, rest) => (.legacy message, rest) := by
  obtain ⟨rest, rfl⟩ := List.head?_eq_some_iff.mp head
  simp only [Message.read, LegacyMessage.read, List.head?_cons, Option.any_some, unmarked,
    Bool.false_eq_true, if_false]

/-- The message without the lookups that select nothing. -/
def withoutEmptyLookups : Message → Message
  | .legacy message => .legacy message
  | .v0 message => .v0 message.withoutEmptyLookups

/-- The first byte of a written message tells its format: a version 0 message always begins with the
mark, and a legacy message with fewer than 128 signers never does. -/
def IsRecognizable : Message → Prop
  | .legacy message => message.header.signers < 128
  | .v0 _ => True

instance : DecidablePred IsRecognizable
  | .legacy _ => inferInstanceAs (Decidable (_ < _))
  | .v0 _ => isTrue trivial

/-- A message is read from its writing, without its empty lookups and whatever follows, as long as
the first byte tells its format. -/
theorem reads_of_toBytes {message : Message} {bytes : Bytes}
    (recognizable : message.IsRecognizable) (written : message.toBytes = .ok bytes) :
    Reads Message.read bytes message.withoutEmptyLookups := by
  intro tail
  cases message with
  | legacy message =>
    have head : (bytes ++ tail).head? = some message.header.numRequiredSignatures := by
      rw [List.head?_append, LegacyMessage.head?_of_toBytes written, Option.some_or]
    have unmarked : hasVersionMark message.header.numRequiredSignatures = false := by
      rw [← Bool.not_eq_true, hasVersionMark_iff]
      exact Nat.not_le.mpr recognizable
    rw [read_of_unmarked head unmarked, LegacyMessage.reads_readCommon written tail]
    rfl
  | v0 message =>
    have head : (bytes ++ tail).head? = some versionMark := by
      rw [List.head?_append, V0Message.head?_of_toBytes written, Option.some_or]
    rw [read_of_marked head (by decide), V0Message.reads_of_toBytes written tail]
    rfl

/-- Exactly the recognizable messages without empty lookups are read back as they were. A legacy
message that is not recognizable begins with a mark, so whatever its bytes are read as, if anything,
is not a legacy message. -/
theorem ofBytes_eq_ok_iff_of_toBytes {message : Message} {bytes : Bytes}
    (written : message.toBytes = .ok bytes) :
    Message.ofBytes bytes = .ok message ↔
      message.IsRecognizable ∧ message.withoutEmptyLookups = message := by
  by_cases recognizable : message.IsRecognizable
  · rw [Message.ofBytes, (reads_of_toBytes recognizable written).whole_eq, Except.ok.injEq]
    simp only [recognizable, true_and]
  · simp only [recognizable, false_and, iff_false]
    intro answered
    cases message with
    | v0 message => exact recognizable trivial
    | legacy message =>
      have marked : hasVersionMark message.header.numRequiredSignatures = true := by
        rw [hasVersionMark_iff]
        exact Nat.not_lt.mp recognizable
      rw [Message.ofBytes, Reader.whole,
        read_of_marked (LegacyMessage.head?_of_toBytes written) marked] at answered
      cases taken : V0Message.read bytes with
      | error fault =>
        rw [taken] at answered
        cases answered
      | ok answer =>
        obtain ⟨other, rest⟩ := answer
        rw [taken] at answered
        cases rest <;> cases answered

end Message

end Transact
