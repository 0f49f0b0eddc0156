import Transact.Proofs.AcceptedBytes
import Transact.Proofs.WrittenParts

/-!
# What is known of a writing beforehand

How many bytes a message takes is asked before it is written, for memory to be set aside or a limit
to be kept, and it is found from lengths alone, without a byte being written. That is a second
account of the wire form, and both have to agree at every width that a count can have.

Writing fails only for a count that is too large. So what becomes of a writing is told by the counts
in it, in the order in which they stand, and by its size (`Wire.Foretold`). Parts that are foretold
give a whole that is, and messages are made of such parts. The main statement,
`Message.toBytes_foretold`, says what comes of it for messages and transactions: which of them can
be written, what is reported of the others, and how many bytes there are.
-/

namespace Transact

namespace Wire

/-- The number of items in front of a list, with the fault that is reported if it is too large. -/
structure Count where
  /-- The number. -/
  count : Nat
  /-- What is reported of a number that no compact length can hold. -/
  tooLarge : MessageError

/-- What is reported of some counts: the fault of the first of them that is too large. -/
def excess? (counts : List Count) : Option MessageError :=
  (counts.find? fun entry => decide (CompactLength.maximum < entry.count)).map Count.tooLarge

/-- Nothing is reported of counts exactly when none of them is too large. -/
theorem excess?_eq_none_iff (counts : List Count) :
    excess? counts = none ↔ ∀ entry ∈ counts, entry.count ≤ CompactLength.maximum := by
  simp only [excess?, Option.map_eq_none_iff, List.find?_eq_none, decide_eq_true_eq, Nat.not_lt]

/-- Of counts one behind the other, the front is reported before what follows. -/
theorem excess?_append (front behind : List Count) :
    excess? (front ++ behind) = (excess? front).or (excess? behind) := by
  rw [excess?, List.find?_append, Option.map_or]
  rfl

/-- What becomes of a writing is told by the counts in it and by its size. -/
structure Foretold (counts : List Count) (size : Nat) (written : Except MessageError Bytes) :
    Prop where
  /-- It fails for the first count that is too large. -/
  error_iff : ∀ fault, written = .error fault ↔ excess? counts = some fault
  /-- It has as many bytes as its size. -/
  length_eq : ∀ bytes, written = .ok bytes → bytes.length = size

namespace Foretold

variable {counts moreCounts : List Count} {size moreSize : Nat}
  {written more : Except MessageError Bytes}

/-- A foretold writing succeeds exactly when no count is too large. -/
theorem exists_ok_iff (foretold : Foretold counts size written) :
    (∃ bytes, written = .ok bytes) ↔ ∀ entry ∈ counts, entry.count ≤ CompactLength.maximum := by
  rw [Outcome.exists_ok_iff, ← excess?_eq_none_iff, Option.eq_none_iff_forall_ne_some]
  exact forall_congr' fun fault => not_congr (foretold.error_iff fault)

/-- Counts and size may be put in other words. -/
theorem restated (foretold : Foretold counts size written) (sameCounts : counts = moreCounts)
    (sameSize : size = moreSize) : Foretold moreCounts moreSize written :=
  sameCounts ▸ sameSize ▸ foretold

/-- A block has no counts and its own length. -/
theorem block (bytes : Bytes) : Foretold [] bytes.length (pure bytes) := by
  constructor
  · intro fault
    change Except.ok bytes = .error fault ↔ none = some fault
    simp only [reduceCtorEq]
  · rintro _ ⟨⟩
    rfl

/-- Of two parts one behind the other, the counts follow one another and the sizes add up. -/
theorem both (first : Foretold counts size written) (second : Foretold moreCounts moreSize more) :
    Foretold (counts ++ moreCounts) (size + moreSize) (writeBoth written more) := by
  constructor
  · intro fault
    rw [excess?_append]
    cases begun : written with
    | error early =>
      rw [(first.error_iff early).mp begun]
      change Except.error early = _ ↔ some early = _
      rw [Except.error.injEq, Option.some.injEq]
    | ok front =>
      rw [(excess?_eq_none_iff counts).mpr (first.exists_ok_iff.mp ⟨front, begun⟩),
        Option.none_or, ← second.error_iff fault]
      cases more with
      | error late => rfl
      | ok behind =>
        change Except.ok (front ++ behind) = _ ↔ _
        simp only [reduceCtorEq]
  · intro bytes joined
    obtain ⟨front, begun, joined⟩ := (Outcome.bind_eq_ok_iff _ _ _).mp joined
    obtain ⟨behind, continued, returned⟩ := (Outcome.bind_eq_ok_iff _ _ _).mp joined
    cases returned
    rw [List.length_append, first.length_eq front begun, second.length_eq behind continued]

/-- A count is foretold by itself. -/
theorem count (tooLarge : MessageError) (number : Nat) :
    Foretold [⟨number, tooLarge⟩] (CompactLength.encodedSize number)
      (writeCount tooLarge number) := by
  unfold writeCount CompactLength.encode
  by_cases within : number ≤ CompactLength.maximum
  · have unreported := (excess?_eq_none_iff [⟨number, tooLarge⟩]).mpr (by simpa using within)
    rw [if_pos within]
    constructor
    · intro fault
      simp only [unreported, reduceCtorEq]
    · rintro _ ⟨⟩
      exact CompactLength.length_groups number
  · have reported : excess? [⟨number, tooLarge⟩] = some tooLarge := by
      simp [excess?, Nat.lt_of_not_le within]
    rw [if_neg within]
    constructor
    · intro fault
      simp only [reported, Except.error.injEq, Option.some.injEq]
    · intro bytes succeeded
      cases succeeded

/-- A byte string is foretold by the count in front of it. -/
theorem bytes (tooLarge : MessageError) (value : Bytes) :
    Foretold [⟨value.length, tooLarge⟩] (runSize value.length 1) (writeBytes tooLarge value) := by
  apply ((count tooLarge value.length).both (block value)).restated rfl
  rw [runSize, Nat.mul_one]

/-- Items that are foretold one by one are foretold in a row. The induction is on the items. -/
theorem row {α : Type} {itemCounts : α → List Count} {itemSize : α → Nat}
    {write : α → Except MessageError Bytes}
    (each : ∀ item, Foretold (itemCounts item) (itemSize item) (write item)) (items : List α) :
    Foretold (items.flatMap itemCounts)
      (items.foldr (fun item total => itemSize item + total) 0)
      (List.flatten <$> items.mapM write) := by
  induction items with
  | nil => exact block []
  | cons item rest inductionHypothesis =>
    have inTurn : List.flatten <$> (item :: rest).mapM write =
        writeBoth (write item) (List.flatten <$> rest.mapM write) := by
      simp only [List.mapM_cons, writeBoth, map_bind, map_pure, bind_map_left, List.flatten_cons]
    rw [inTurn, List.flatMap_cons, List.foldr_cons]
    exact (each item).both inductionHypothesis

/-- Items that are foretold one by one are foretold as a list, behind their count. -/
theorem list {α : Type} {itemCounts : α → List Count} {itemSize : α → Nat}
    {write : α → Except MessageError Bytes}
    (each : ∀ item, Foretold (itemCounts item) (itemSize item) (write item))
    (tooLarge : MessageError) (items : List α) :
    Foretold (⟨items.length, tooLarge⟩ :: items.flatMap itemCounts)
      (CompactLength.encodedSize items.length +
        items.foldr (fun item total => itemSize item + total) 0)
      (writeList write tooLarge items) := by
  have parts : writeList write tooLarge items =
      writeBoth (writeCount tooLarge items.length) (List.flatten <$> items.mapM write) := by
    simp only [writeList, writeBoth, bind_map_left]
  rw [parts]
  exact (count tooLarge items.length).both (row each items)

end Foretold

end Wire

open Wire

namespace CompiledInstruction

/-- The counts in an instruction. -/
def counts (instruction : CompiledInstruction) : List Count :=
  [⟨instruction.accounts.length, .instructionAccountsTooLarge⟩,
    ⟨instruction.data.length, .instructionDataTooLarge⟩]

/-- The counts of an instruction are those of its accounts and of its data. -/
theorem forall_counts_iff (instruction : CompiledInstruction) :
    (∀ entry ∈ instruction.counts, entry.count ≤ CompactLength.maximum) ↔
      instruction.accounts.length ≤ CompactLength.maximum ∧
        instruction.data.length ≤ CompactLength.maximum := by
  simp [counts]

/-- An instruction is foretold. -/
theorem foretold (instruction : CompiledInstruction) :
    Foretold instruction.counts instruction.size instruction.toBytes := by
  rw [toBytes_eq_writeBoth]
  apply ((Foretold.block _).both ((Foretold.bytes _ _).both (Foretold.bytes _ _))).restated rfl
  rw [size, Nat.add_assoc, List.length_singleton]

end CompiledInstruction

namespace TableLookup

/-- The counts in a lookup. -/
def counts (lookup : TableLookup) : List Count :=
  [⟨lookup.writableIndexes.length, .addressTableLookupTooLarge⟩,
    ⟨lookup.readonlyIndexes.length, .addressTableLookupTooLarge⟩]

/-- The counts of a lookup are those of its two lists of places. -/
theorem forall_counts_iff (lookup : TableLookup) :
    (∀ entry ∈ lookup.counts, entry.count ≤ CompactLength.maximum) ↔
      lookup.writableIndexes.length ≤ CompactLength.maximum ∧
        lookup.readonlyIndexes.length ≤ CompactLength.maximum := by
  simp [counts]

/-- A lookup is foretold. -/
theorem foretold (lookup : TableLookup) :
    Foretold lookup.counts lookup.size lookup.toBytes := by
  rw [toBytes_eq_writeBoth]
  apply ((Foretold.block _).both ((Foretold.bytes _ _).both (Foretold.bytes _ _))).restated rfl
  rw [size, Nat.add_assoc, Address.length_toBytes]

/-- The lookup selects something: one of its two lists of places is not empty. -/
def IsNonempty (lookup : TableLookup) : Prop :=
  lookup.writableIndexes ≠ [] ∨ lookup.readonlyIndexes ≠ []

instance (lookup : TableLookup) : Decidable lookup.IsNonempty :=
  inferInstanceAs (Decidable (_ ∨ _))

/-- A lookup selects something unless it is empty. -/
theorem isNonempty_iff (lookup : TableLookup) : lookup.IsNonempty ↔ lookup.isEmpty = false := by
  simp only [IsNonempty, isEmpty, Bool.and_eq_false_iff, List.isEmpty_eq_false_iff]

end TableLookup

namespace LegacyMessage

/-- The counts in a legacy message, in the order in which they are written. -/
def counts (message : LegacyMessage) : List Count :=
  ⟨message.accountKeys.length, .tooManyAccountKeys⟩ ::
    ⟨message.instructions.length, .tooManyInstructions⟩ ::
      message.instructions.flatMap CompiledInstruction.counts

/-- Every count of a legacy message can be written. -/
structure Countable (message : LegacyMessage) : Prop where
  /-- There are not too many keys. -/
  keys : message.accountKeys.length ≤ CompactLength.maximum
  /-- There are not too many instructions. -/
  instructions : message.instructions.length ≤ CompactLength.maximum
  /-- No instruction has too many accounts. -/
  accounts : ∀ instruction ∈ message.instructions,
    instruction.accounts.length ≤ CompactLength.maximum
  /-- No instruction has too much data. -/
  data : ∀ instruction ∈ message.instructions, instruction.data.length ≤ CompactLength.maximum

/-- The counts of a legacy message are those that it has to have written. -/
theorem forall_counts_iff (message : LegacyMessage) :
    (∀ entry ∈ message.counts, entry.count ≤ CompactLength.maximum) ↔ message.Countable := by
  simp only [counts, List.forall_mem_cons, List.forall_mem_flatMap,
    CompiledInstruction.forall_counts_iff]
  constructor
  · rintro ⟨keys, instructions, within⟩
    exact ⟨keys, instructions, fun instruction member => (within instruction member).1,
      fun instruction member => (within instruction member).2⟩
  · rintro ⟨keys, instructions, accounts, data⟩
    exact ⟨keys, instructions, fun instruction member =>
      ⟨accounts instruction member, data instruction member⟩⟩

/-- Keys of 32 bytes each take a multiple of that. -/
theorem foldr_keys (keys : List Address) :
    keys.foldr (fun key total => key.toBytes.length + total) 0 = keys.length * 32 := by
  induction keys with
  | nil => rfl
  | cons key rest inductionHypothesis =>
    rw [List.foldr_cons, inductionHypothesis, Address.length_toBytes, List.length_cons]
    omega

/-- A legacy message is foretold. -/
theorem foretold (message : LegacyMessage) :
    Foretold message.counts message.size message.toBytes := by
  have keys := Foretold.list (fun key : Address => Foretold.block key.toBytes) .tooManyAccountKeys
    message.accountKeys
  have instructions := Foretold.list CompiledInstruction.foretold .tooManyInstructions
    message.instructions
  rw [toBytes_eq_writeBoth]
  apply ((Foretold.block _).both (keys.both ((Foretold.block _).both instructions))).restated
  · simp [counts]
  · rw [foldr_keys, Hash.length_toBytes, size, runSize, MessageHeader.toBytes]
    simp only [List.length_cons, List.length_nil]
    omega

end LegacyMessage

namespace V0Message

/-- The lookups of a message that select something. -/
def nonemptyLookups (message : V0Message) : List TableLookup :=
  message.addressTableLookups.filter fun lookup => decide lookup.IsNonempty

/-- The counts in a version 0 message, in the order in which they are written. -/
def counts (message : V0Message) : List Count :=
  message.toLegacyMessage.counts ++
    ⟨message.nonemptyLookups.length, .tooManyAddressTableLookups⟩ ::
      message.nonemptyLookups.flatMap TableLookup.counts

/-- Every count of a version 0 message can be written. Of the lookups only those that select
something are counted. -/
structure Countable (message : V0Message) : Prop where
  /-- The counts of the common part can be written. -/
  common : message.toLegacyMessage.Countable
  /-- There are not too many lookups that select something. -/
  lookups : message.nonemptyLookups.length ≤ CompactLength.maximum
  /-- No lookup has too many writable places. -/
  writable : ∀ lookup ∈ message.addressTableLookups,
    lookup.writableIndexes.length ≤ CompactLength.maximum
  /-- No lookup has too many readonly places. -/
  readonly : ∀ lookup ∈ message.addressTableLookups,
    lookup.readonlyIndexes.length ≤ CompactLength.maximum

/-- The lookups that are written are those that select something. -/
theorem writtenLookups_eq (message : V0Message) :
    message.writtenLookups = message.nonemptyLookups := by
  refine List.filter_congr fun lookup _ => ?_
  rw [Bool.eq_iff_iff, decide_eq_true_iff, TableLookup.isNonempty_iff, Bool.not_eq_true']

/-- What is asked of the places of every lookup is asked of those that select something, as the
others have none. -/
theorem forall_nonemptyLookups_iff (message : V0Message) :
    (∀ lookup ∈ message.nonemptyLookups,
        lookup.writableIndexes.length ≤ CompactLength.maximum ∧
          lookup.readonlyIndexes.length ≤ CompactLength.maximum) ↔
      ∀ lookup ∈ message.addressTableLookups,
        lookup.writableIndexes.length ≤ CompactLength.maximum ∧
          lookup.readonlyIndexes.length ≤ CompactLength.maximum := by
  simp only [nonemptyLookups, List.mem_filter, decide_eq_true_iff, and_imp]
  refine forall₂_congr fun lookup _ => ⟨fun within => ?_, fun within _ => within⟩
  by_cases nonempty : lookup.IsNonempty
  · exact within nonempty
  · simp only [TableLookup.IsNonempty, not_or, not_not] at nonempty
    simp [nonempty]

/-- The counts of a version 0 message are those that it has to have written. -/
theorem forall_counts_iff (message : V0Message) :
    (∀ entry ∈ message.counts, entry.count ≤ CompactLength.maximum) ↔ message.Countable := by
  simp only [counts, List.forall_mem_append, LegacyMessage.forall_counts_iff, List.forall_mem_cons,
    List.forall_mem_flatMap, TableLookup.forall_counts_iff, forall_nonemptyLookups_iff]
  constructor
  · rintro ⟨common, lookups, within⟩
    exact ⟨common, lookups, fun lookup member => (within lookup member).1,
      fun lookup member => (within lookup member).2⟩
  · rintro ⟨common, lookups, writable, readonly⟩
    exact ⟨common, lookups, fun lookup member => ⟨writable lookup member, readonly lookup member⟩⟩

/-- A version 0 message is foretold. -/
theorem foretold (message : V0Message) :
    Foretold message.counts message.size message.toBytes := by
  have lookups := Foretold.list TableLookup.foretold .tooManyAddressTableLookups
    message.writtenLookups
  rw [toBytes_eq_writeBoth]
  apply ((Foretold.block _).both (message.toLegacyMessage.foretold.both lookups)).restated
  · rw [counts, ← writtenLookups_eq, List.nil_append]
  · rw [size, List.length_singleton, Nat.add_assoc, Nat.add_assoc]

end V0Message

namespace Message

/-- The counts in a message, in the order in which they are written. -/
def counts : Message → List Count
  | .legacy message => message.counts
  | .v0 message => message.counts

/-- Every count of a message can be written. -/
def Countable : Message → Prop
  | .legacy message => message.Countable
  | .v0 message => message.Countable

/-- The counts of a message are those that it has to have written. -/
theorem forall_counts_iff (message : Message) :
    (∀ entry ∈ message.counts, entry.count ≤ CompactLength.maximum) ↔ message.Countable := by
  cases message with
  | legacy message => exact message.forall_counts_iff
  | v0 message => exact message.forall_counts_iff

/-- A message of either format is foretold. -/
theorem foretold (message : Message) :
    Foretold message.counts message.size message.toBytes := by
  cases message with
  | legacy message => exact message.foretold
  | v0 message => exact message.foretold

end Message

/-- A transaction has as many bytes as its size. -/
theorem Transaction.size_eq_length {transaction : Transaction} {bytes : Bytes}
    (written : transaction.toBytes = .ok bytes) : transaction.size = bytes.length := by
  obtain ⟨_, count, message, counted, messageWritten, rfl⟩ :=
    (Transaction.toBytes_eq_ok_iff _ _).mp written
  rw [← List.append_assoc, List.length_append, Transaction.length_signatures transaction counted,
    transaction.message.foretold.length_eq message messageWritten, Transaction.size]

/-- Size and success of a writing are known beforehand. A message can be written exactly when none
of its counts is too large, and otherwise the first count in the order of the wire form that is too
large is reported. What is written, of a message or of a transaction, has as many bytes as its
size. -/
theorem Message.toBytes_foretold :
    (∀ message : Message,
      ((∃ bytes, message.toBytes = .ok bytes) ↔ message.Countable) ∧
      (∀ fault, message.toBytes = .error fault ↔ excess? message.counts = some fault) ∧
      ∀ bytes, message.toBytes = .ok bytes → message.size = bytes.length) ∧
    ∀ (transaction : Transaction) (bytes : Bytes), transaction.toBytes = .ok bytes →
      transaction.size = bytes.length := by
  constructor
  · intro message
    have foretold := message.foretold
    refine ⟨foretold.exists_ok_iff.trans message.forall_counts_iff, foretold.error_iff, ?_⟩
    intro bytes written
    exact (foretold.length_eq bytes written).symm
  · intro transaction bytes written
    exact Transaction.size_eq_length written

/-- A message of one instruction that has so many accounts and so much data. -/
def sampleOfLength (accounts data : Nat) : Message :=
  .legacy ⟨⟨1, 0, 1⟩, [.numbered 1, .numbered 9], Hash.zero,
    [⟨1, List.replicate accounts 0, List.replicate data 7⟩]⟩

/-- The counts of the sample are those of two keys, one instruction, its accounts and its data. -/
theorem counts_sampleOfLength (accounts data : Nat) : (sampleOfLength accounts data).counts =
    [⟨2, .tooManyAccountKeys⟩, ⟨1, .tooManyInstructions⟩,
      ⟨accounts, .instructionAccountsTooLarge⟩, ⟨data, .instructionDataTooLarge⟩] := by
  simp [sampleOfLength, Message.counts, LegacyMessage.counts, CompiledInstruction.counts]

/-- A version 0 message with so many lookups that select an entry, behind so many that select
nothing. -/
def sampleOfLookups (empty nonempty : Nat) : V0Message where
  header := ⟨1, 0, 1⟩
  accountKeys := [.numbered 1, .numbered 9]
  recentBlockhash := Hash.zero
  instructions := [⟨1, [0], [7]⟩]
  addressTableLookups := List.replicate empty ⟨.numbered 6, [], []⟩ ++
    List.replicate nonempty ⟨.numbered 5, [0], []⟩

/-- The lookups of the sample that select something are those that select an entry. -/
theorem nonemptyLookups_sampleOfLookups (empty nonempty : Nat) :
    (sampleOfLookups empty nonempty).nonemptyLookups =
      List.replicate nonempty ⟨.numbered 5, [0], []⟩ := by
  simp [V0Message.nonemptyLookups, sampleOfLookups, TableLookup.IsNonempty]

/-- The counts of the sample are those of two keys, one instruction with one account and one byte of
data, and the lookups that select an entry. -/
theorem counts_sampleOfLookups (empty nonempty : Nat) : (sampleOfLookups empty nonempty).counts =
    [⟨2, .tooManyAccountKeys⟩, ⟨1, .tooManyInstructions⟩, ⟨1, .instructionAccountsTooLarge⟩,
      ⟨1, .instructionDataTooLarge⟩, ⟨nonempty, .tooManyAddressTableLookups⟩] ++
      (List.replicate nonempty ⟨.numbered 5, [0], []⟩).flatMap TableLookup.counts := by
  rw [V0Message.counts, nonemptyLookups_sampleOfLookups, List.length_replicate]
  rfl

/-- The sample of one instruction is written with as many bytes as its size on both sides of each
length at which the count of its data becomes wider. Beyond the last of them it is refused for its
data, or for its accounts where these are too many as well. The sample of lookups takes 35 bytes for
each of two that select an entry and none for those that select nothing, and it is refused only for
too many of the former. In a transaction the first sample takes as many bytes as is said. -/
theorem Message.toBytes_foretold_sample :
    (∀ data ∈ [127, 128, 16383, 16384, 65535],
      ∃ bytes, (sampleOfLength 1 data).toBytes = .ok bytes ∧
        (sampleOfLength 1 data).size = bytes.length) ∧
    (sampleOfLength 1 65536).toBytes = .error .instructionDataTooLarge ∧
    (sampleOfLength 65536 65536).toBytes = .error .instructionAccountsTooLarge ∧
    (∀ empty ∈ [0, 3, 65536],
      ∃ bytes, (Message.v0 (sampleOfLookups empty 2)).toBytes = .ok bytes ∧
        bytes.length = 108 + 2 * 35) ∧
    (Message.v0 (sampleOfLookups 3 65536)).toBytes = .error .tooManyAddressTableLookups ∧
    ∃ bytes, Transaction.toBytes ⟨[Signature.zero], sampleOfLength 1 1⟩ = .ok bytes ∧
      Transaction.size ⟨[Signature.zero], sampleOfLength 1 1⟩ = bytes.length := by
  obtain ⟨messages, transactions⟩ := Message.toBytes_foretold
  refine ⟨?_, ?_, ?_, ?_, ?_, ?_⟩
  · intro data member
    have within : ∀ data ∈ [127, 128, 16383, 16384, 65535], data ≤ CompactLength.maximum := by
      decide
    have countable : (sampleOfLength 1 data).Countable := by
      rw [← Message.forall_counts_iff, counts_sampleOfLength]
      simpa [CompactLength.maximum] using within data member
    obtain ⟨bytes, written⟩ := (messages (sampleOfLength 1 data)).1.mpr countable
    exact ⟨bytes, written, (messages (sampleOfLength 1 data)).2.2 bytes written⟩
  · apply ((messages (sampleOfLength 1 65536)).2.1 _).mpr
    rw [counts_sampleOfLength]
    rfl
  · apply ((messages (sampleOfLength 65536 65536)).2.1 _).mpr
    rw [counts_sampleOfLength]
    rfl
  · intro empty _
    have countable : (Message.v0 (sampleOfLookups empty 2)).Countable := by
      rw [← Message.forall_counts_iff, Message.counts, counts_sampleOfLookups]
      decide
    have size : (Message.v0 (sampleOfLookups empty 2)).size = 108 + 2 * 35 := by
      rw [Message.size, V0Message.size, V0Message.writtenLookups_eq,
        nonemptyLookups_sampleOfLookups]
      rfl
    obtain ⟨bytes, written⟩ := (messages (.v0 (sampleOfLookups empty 2))).1.mpr countable
    exact ⟨bytes, written, ((messages _).2.2 bytes written).symm.trans size⟩
  · apply ((messages (.v0 (sampleOfLookups 3 65536))).2.1 _).mpr
    rw [Message.counts, counts_sampleOfLookups]
    rfl
  · have written : ∃ bytes,
        Transaction.toBytes ⟨[Signature.zero], sampleOfLength 1 1⟩ = .ok bytes := ⟨_, rfl⟩
    obtain ⟨bytes, written⟩ := written
    exact ⟨bytes, written, transactions _ bytes written⟩

end Transact
