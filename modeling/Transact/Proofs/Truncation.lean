import Transact.Proofs.AcceptedBytes
import Transact.Proofs.IncompleteInput
import Transact.Proofs.PayloadReading

/-!
# Transactions that were cut short

Who receives a transaction piece by piece has to know whether to wait for more. Reading tells: two
faults say that the input ended too soon (`TransactionError.IsIncomplete`), and every other fault is
found in the bytes that are there. The readers of all parts of a transaction discern in this sense,
which carries to whole transactions (`Transaction.discerning_read`).

The main statement, `Transaction.incomplete_or_bad`, says what this means for an input of any kind
and for each proper front of a written transaction. Only one such front is read at all, the one that
ends where the lookups of a version 0 message begin.
-/

namespace Transact

open Reader (Local Discerning Reads)

/-- The input ended before the message did. -/
def MessageError.IsIncomplete (fault : MessageError) : Prop := fault = .bufferTooSmall

theorem MessageError.isIncomplete_bufferTooSmall : IsIncomplete .bufferTooSmall := rfl

open MessageError (isIncomplete_bufferTooSmall)

namespace Wire

/-- The fault of a message whose count is at fault. -/
def countFault : CompactLength.Error → MessageError
  | .insufficientData => .bufferTooSmall
  | fault => .invalidCompactLength fault

/-- A count is a compact length with its faults renamed. -/
theorem readCount_eq :
    readCount = fun input => (CompactLength.decode input).mapError countFault := by
  funext input
  unfold readCount
  cases CompactLength.decode input with
  | ok taken => rfl
  | error fault => cases fault <;> rfl

/-- Counts are read discerningly. -/
theorem discerning_readCount : Discerning MessageError.IsIncomplete readCount := by
  rw [readCount_eq]
  refine CompactLength.discerning_decode.mapError fun fault => ?_
  cases fault <;> simp [countFault, MessageError.IsIncomplete]

theorem local_readCount : Local readCount :=
  Reader.Canonical.isLocal (canonical_readCount .bufferTooSmall) fun _ _ => reads_count

/-- Byte strings are read discerningly. -/
theorem discerning_readBytes : Discerning MessageError.IsIncomplete readBytes :=
  discerning_readCount.bind local_readCount fun _ =>
    Reader.discerning_bytes isIncomplete_bufferTooSmall _

theorem local_readBytes : Local readBytes :=
  Reader.Canonical.isLocal (canonical_readBytes .bufferTooSmall) fun _ _ => reads_bytes

/-- Addresses are read discerningly. -/
theorem discerning_readAddress : Discerning MessageError.IsIncomplete readAddress :=
  (Reader.discerning_map_iff Address.mk).mpr
    (Reader.discerning_block isIncomplete_bufferTooSmall 32)

theorem local_readAddress : Local readAddress :=
  Reader.Canonical.isLocal canonical_readAddress fun address _ written =>
    written ▸ reads_address address

/-- Hashes are read discerningly. -/
theorem discerning_readHash : Discerning MessageError.IsIncomplete readHash :=
  (Reader.discerning_map_iff Hash.mk).mpr (Reader.discerning_block isIncomplete_bufferTooSmall 32)

theorem local_readHash : Local readHash :=
  Reader.Canonical.isLocal canonical_readHash fun hash _ written => written ▸ reads_hash hash

variable {α : Type} {read : Reader MessageError α}

/-- Lists behind their count are read discerningly when their items are. -/
theorem discerning_readList (discerning : Discerning MessageError.IsIncomplete read)
    (fixed : Local read) : Discerning MessageError.IsIncomplete (readList read) :=
  discerning_readCount.bind local_readCount fun count =>
    (Reader.discerning_map_iff FixedList.toList).mpr (Reader.discerning_many discerning fixed count)

theorem local_readList (fixed : Local read) : Local (readList read) :=
  local_readCount.bind fun count =>
    (Reader.local_many fixed count).bind fun _ => Reader.local_pure _

end Wire

open Wire

/-- Headers are read discerningly. -/
theorem MessageHeader.discerning_read :
    Discerning MessageError.IsIncomplete MessageHeader.read := by
  refine Reader.discerning_of_length 3 isIncomplete_bufferTooSmall ?_ ?_
  · intro input cause
    match input with
    | [] => simp [MessageHeader.read]
    | [_] => simp [MessageHeader.read]
    | [_, _] => simp [MessageHeader.read]
    | _ :: _ :: _ :: rest =>
      have enough : ¬(rest.length + 1 + 1 + 1 < 3) := by omega
      simp [MessageHeader.read, enough]
  · intro input spans
    obtain ⟨signers, readonlySigners, readonlyOthers, rfl⟩ := List.length_eq_three.mp spans
    exact ⟨_, rfl⟩

theorem MessageHeader.local_read : Local MessageHeader.read :=
  Reader.Canonical.isLocal canonical_read fun header _ written => written ▸ reads_toBytes header

/-- Instructions are read discerningly. -/
theorem CompiledInstruction.discerning_read :
    Discerning MessageError.IsIncomplete CompiledInstruction.read := by
  refine (Reader.discerning_byte isIncomplete_bufferTooSmall).bind ?_ fun program => ?_
  · exact Reader.Canonical.isLocal (Reader.canonical_byte _) fun _ _ written =>
      written ▸ fun _ => rfl
  refine discerning_readBytes.bind local_readBytes fun accounts => ?_
  refine discerning_readBytes.bind local_readBytes fun data => ?_
  exact Reader.discerning_pure _ _

theorem CompiledInstruction.local_read : Local CompiledInstruction.read :=
  Reader.Canonical.isLocal canonical_read reads_of_toBytes

/-- Lookups are read discerningly. -/
theorem TableLookup.discerning_read : Discerning MessageError.IsIncomplete TableLookup.read := by
  refine discerning_readAddress.bind local_readAddress fun tableKey => ?_
  refine discerning_readBytes.bind local_readBytes fun writable => ?_
  refine discerning_readBytes.bind local_readBytes fun readonly => ?_
  exact Reader.discerning_pure _ _

theorem TableLookup.local_read : Local TableLookup.read :=
  Reader.Canonical.isLocal canonical_read reads_of_toBytes

/-- What both formats have in common is read discerningly. -/
theorem LegacyMessage.discerning_readCommon : Discerning MessageError.IsIncomplete readCommon := by
  rw [funext readCommon_eq]
  refine MessageHeader.discerning_read.bind MessageHeader.local_read fun header => ?_
  refine (discerning_readList discerning_readAddress local_readAddress).bind
    (local_readList local_readAddress) fun accountKeys => ?_
  refine discerning_readHash.bind local_readHash fun recentBlockhash => ?_
  refine (discerning_readList CompiledInstruction.discerning_read
    CompiledInstruction.local_read).bind (local_readList CompiledInstruction.local_read)
    fun instructions => ?_
  exact Reader.discerning_pure _ _

theorem LegacyMessage.local_readCommon : Local readCommon :=
  Reader.Canonical.isLocal canonical_readCommon fun _ _ => reads_readCommon

namespace V0Message

/-- A version 0 message whose lookups are expected is read discerningly behind its mark. -/
theorem discerning_readStrict : Discerning MessageError.IsIncomplete readStrict := by
  refine LegacyMessage.discerning_readCommon.bind LegacyMessage.local_readCommon fun common => ?_
  refine (discerning_readList TableLookup.discerning_read TableLookup.local_read).bind
    (local_readList TableLookup.local_read) fun lookups => ?_
  exact Reader.discerning_pure _ _

theorem local_readStrict : Local readStrict :=
  LegacyMessage.local_readCommon.bind fun _ =>
    (local_readList TableLookup.local_read).bind fun _ => Reader.local_pure _

/-- Where the input ends after the instructions, the message has no lookups. -/
theorem read_of_endsAfterInstructions {input : Bytes}
    (ends : EndsAfterInstructions (versionMark :: input)) :
    ∃ common, LegacyMessage.readCommon input = .ok (common, []) ∧
      V0Message.read (versionMark :: input) =
        .ok ({ toLegacyMessage := common, addressTableLookups := [] }, []) := by
  obtain ⟨rest, common, spelled, taken⟩ := ends
  obtain ⟨_, rfl⟩ := List.cons.inj spelled
  refine ⟨common, taken, ?_⟩
  rw [read_mark_eq, taken]
  rfl

/-- A version 0 message is read discerningly behind its mark. Where it fails, its lookups were
expected. -/
theorem discerning_read_mark :
    Discerning MessageError.IsIncomplete fun input => V0Message.read (versionMark :: input) := by
  have expected : ∀ {input fault}, V0Message.read (versionMark :: input) = .error fault →
      readStrict input = .error fault := by
    intro input fault failed
    have goesOn : ¬EndsAfterInstructions (versionMark :: input) := by
      intro ends
      obtain ⟨_, _, taken⟩ := read_of_endsAfterInstructions ends
      rw [taken] at failed
      cases failed
    rwa [read_mark_eq_readStrict goesOn] at failed
  have unexpected : ∀ {input outcome}, readStrict input = outcome →
      outcome ≠ .error .bufferTooSmall → V0Message.read (versionMark :: input) = outcome := by
    rintro input _ rfl other
    exact read_mark_eq_readStrict fun ends => other (readStrict_of_endsAfterInstructions ends)
  constructor
  case refused =>
    intro input fault failed bad tail
    refine unexpected (discerning_readStrict.refused (expected failed) bad tail) ?_
    exact fun same => bad (Except.error.inj same)
  case completed =>
    intro input fault failed incomplete
    obtain ⟨tail, message, completed⟩ :=
      discerning_readStrict.completed (expected failed) incomplete
    exact ⟨tail, message, unexpected completed nofun⟩
  case whole =>
    obtain ⟨input, message, whole⟩ := discerning_readStrict.whole
    exact ⟨input, message, unexpected whole nofun⟩

/-- Behind the mark of a written version 0 message its lookups are always expected. -/
theorem reads_readStrict {message : V0Message} {bytes : Bytes}
    (written : message.toBytes = .ok (versionMark :: bytes)) :
    Reads readStrict bytes message.withoutEmptyLookups := by
  obtain ⟨common, count, parts, commonWritten, counted, _, spelled⟩ :=
    (toBytes_eq_ok_iff message _).mp written
  obtain ⟨_, rfl⟩ := List.cons.inj spelled
  obtain ⟨_, rfl⟩ :=
    (CompactLength.encode_eq_ok_iff _ _).mp ((writeCount_eq_ok_iff _ _ _).mp counted)
  intro tail
  have taken := reads_of_toBytes written tail
  rw [List.cons_append, List.append_assoc] at taken
  rw [List.append_assoc, ← read_mark_eq_readStrict, taken]
  rw [endsAfterInstructions_iff commonWritten, List.append_assoc]
  exact fun nothing => CompactLength.groups_ne_nil _ (List.append_eq_nil_iff.mp nothing).1

end V0Message

namespace Message

/-- The message without any lookups. -/
def withoutLookups : Message → Message
  | .legacy message => .legacy message
  | .v0 message => .v0 { message with addressTableLookups := [] }

/-- A first byte either announces a version that is not known, whatever follows, or is followed by
what is read discerningly. -/
theorem read_cons (first : UInt8) :
    (∃ fault, ¬MessageError.IsIncomplete fault ∧
      ∀ others, Message.read (first :: others) = .error fault) ∨
    Discerning MessageError.IsIncomplete fun others => Message.read (first :: others) := by
  cases marked : hasVersionMark first with
  | false =>
    refine Or.inr ?_
    simp only [read_of_unmarked List.head?_cons marked, Reader.discerning_map_iff]
    exact LegacyMessage.discerning_readCommon.behind ⟨List.replicate 36 0, _, rfl⟩
  | true =>
    by_cases version : first = versionMark
    · subst version
      refine Or.inr ?_
      simp only [read_of_marked List.head?_cons marked, Reader.discerning_map_iff]
      exact V0Message.discerning_read_mark
    · refine Or.inl ⟨.unsupportedVersion (first - versionMark), nofun, fun others => ?_⟩
      have unsupported : first - versionMark ≠ 0 := by
        intro same
        exact version (by rw [← UInt8.sub_add_cancel first versionMark, same, UInt8.zero_add])
      rw [read_of_marked List.head?_cons marked]
      simp [V0Message.read, Reader.byte, marked, unsupported, bind, Except.bind, throw, throwThe,
        MonadExceptOf.throw, Except.map]

/-- Messages of both formats are read discerningly. -/
theorem discerning_read : Discerning MessageError.IsIncomplete Message.read where
  refused := by
    intro input fault failed bad tail
    cases input with
    | nil => exact absurd (Except.error.inj failed).symm bad
    | cons first others =>
      obtain ⟨cause, _, always⟩ | discerning := read_cons first
      · rw [← failed, always]
        exact always (others ++ tail)
      · exact discerning.refused failed bad tail
  completed := by
    intro input fault failed incomplete
    cases input with
    | nil => exact ⟨List.replicate 37 0, _, rfl⟩
    | cons first others =>
      obtain ⟨cause, bad, always⟩ | discerning := read_cons first
      · rw [always] at failed
        cases failed
        exact absurd incomplete bad
      · exact discerning.completed failed incomplete
  whole := ⟨List.replicate 37 0, _, rfl⟩

/-- A front of a written message is read if it ends where the lookups begin, and then as the message
without them. On any other front that lacks something the bytes run out. -/
theorem read_front {message : Message} {front behind : Bytes}
    (recognizable : message.IsRecognizable) (written : message.toBytes = .ok (front ++ behind))
    (shorter : behind ≠ []) :
    (V0Message.EndsAfterInstructions front →
      Message.read front = .ok (message.withoutLookups, [])) ∧
    (¬V0Message.EndsAfterInstructions front →
      Message.read front = .error .bufferTooSmall) := by
  cases front with
  | nil =>
    refine ⟨?_, fun _ => rfl⟩
    rintro ⟨_, _, spelled, _⟩
    cases spelled
  | cons first others =>
    cases message with
    | legacy message =>
      have head : some first = some message.header.numRequiredSignatures :=
        LegacyMessage.head?_of_toBytes written
      have unmarked : hasVersionMark first = false := by
        rw [Option.some.inj head, ← Bool.not_eq_true, hasVersionMark_iff]
        exact Nat.not_le.mpr recognizable
      have settled := LegacyMessage.discerning_readCommon.settled LegacyMessage.local_readCommon
      obtain ⟨fault, failed, rfl⟩ :=
        settled.error_of_front (LegacyMessage.reads_readCommon written) shorter
      constructor
      · rintro ⟨_, _, spelled, _⟩
        rw [(List.cons.inj spelled).1] at unmarked
        cases unmarked
      · intro _
        rw [read_of_unmarked List.head?_cons unmarked, failed]
        rfl
    | v0 message =>
      have head : some first = some versionMark := V0Message.head?_of_toBytes written
      obtain rfl := Option.some.inj head
      rw [read_of_marked List.head?_cons (by decide)]
      constructor
      · intro ends
        obtain ⟨common, commonTaken, taken⟩ := V0Message.read_of_endsAfterInstructions ends
        obtain ⟨part, _, _, partWritten, _, _, spelled⟩ :=
          (V0Message.toBytes_eq_ok_iff message _).mp written
        have again := LegacyMessage.local_readCommon.taken commonTaken behind
        have same : others ++ behind = part ++ _ := (List.cons.inj spelled).2
        rw [same, LegacyMessage.reads_readCommon partWritten] at again
        obtain ⟨rfl, _⟩ := Prod.mk.inj (Except.ok.inj again)
        rw [taken]
        rfl
      · intro goesOn
        have settled := V0Message.discerning_readStrict.settled V0Message.local_readStrict
        obtain ⟨fault, failed, rfl⟩ :=
          settled.error_of_front (V0Message.reads_readStrict written) shorter
        rw [V0Message.read_mark_eq_readStrict goesOn, failed]
        rfl

end Message

namespace TransactionError

/-- The input ended before the transaction did. -/
def IsIncomplete (fault : TransactionError) : Prop :=
  fault = .notEnoughSignatureBytes ∨ fault = .message .bufferTooSmall

end TransactionError

namespace Transaction

/-- The transaction without any lookups. -/
def withoutLookups (transaction : Transaction) : Transaction :=
  { transaction with message := transaction.message.withoutLookups }

/-- The fault of a transaction whose number of signatures is at fault. -/
def countFault : CompactLength.Error → TransactionError
  | .insufficientData => .notEnoughSignatureBytes
  | fault => .invalidSignatureCount fault

/-- A number of signatures is a compact length with its faults renamed. -/
theorem readCount_eq :
    readCount = fun input => (CompactLength.decode input).mapError countFault := by
  funext input
  unfold readCount
  cases CompactLength.decode input with
  | ok taken => rfl
  | error fault => cases fault <;> rfl

/-- Take the signatures behind their number. -/
def readSignatures : Reader TransactionError (List Signature) := fun input => do
  let (count, rest) ← readCount input
  let (signatures, rest) ← Reader.many readSignature count rest
  return (signatures.toList, rest)

/-- A transaction is its signatures and its message. -/
theorem read_eq (input : Bytes) :
    Transaction.read input = (do
      let (signatures, rest) ← readSignatures input
      let (message, rest) ← (Message.read rest).mapError .message
      return ({ signatures, message }, rest)) := by
  simp only [Transaction.read, readSignatures, bind_assoc, pure_bind]

/-- Signatures are read from their writing. -/
theorem reads_readSignatures {signatures : List Signature} {count : Bytes}
    (counted : CompactLength.encode signatures.length = .ok count) :
    Reads readSignatures (count ++ (signatures.map Signature.toBytes).flatten) signatures := by
  have items := Reader.reads_many_map reads_signature signatures
  intro tail
  rw [readSignatures, List.append_assoc]
  simp only [reads_count counted _, items _, bind, Except.bind]
  rfl

theorem local_readCount : Local readCount :=
  Reader.Canonical.isLocal canonical_readCount fun _ _ => reads_count

theorem local_readSignature : Local readSignature :=
  Reader.Canonical.isLocal canonical_readSignature fun signature _ written =>
    written ▸ reads_signature signature

theorem local_readSignatures : Local readSignatures :=
  local_readCount.bind fun count =>
    (Reader.local_many local_readSignature count).bind fun _ => Reader.local_pure _

/-- Signatures are read discerningly, whichever faults are taken for a lack of bytes, as long as the
one of the signatures is and of those of their number only the one that says so. -/
theorem discerning_readSignatures {short : TransactionError → Prop}
    (faithful : ∀ fault, short (countFault fault) ↔ fault = .insufficientData) :
    Discerning short readSignatures := by
  have lacking : short .notEnoughSignatureBytes := (faithful .insufficientData).mpr rfl
  have counts : Discerning short readCount := by
    rw [readCount_eq]
    exact CompactLength.discerning_decode.mapError faithful
  have items : Discerning short readSignature :=
    (Reader.discerning_map_iff Signature.mk).mpr (Reader.discerning_block lacking 64)
  exact counts.bind local_readCount fun count =>
    (Reader.discerning_map_iff FixedList.toList).mpr
      (Reader.discerning_many items local_readSignature count)

/-- Transactions are read discerningly. -/
theorem discerning_read : Discerning TransactionError.IsIncomplete Transaction.read := by
  have signatures : Discerning TransactionError.IsIncomplete readSignatures := by
    refine discerning_readSignatures fun fault => ?_
    cases fault <;> simp [countFault, TransactionError.IsIncomplete]
  have messages : Discerning TransactionError.IsIncomplete fun input =>
      (Message.read input).mapError TransactionError.message := by
    refine Message.discerning_read.mapError fun fault => ?_
    simp [TransactionError.IsIncomplete, MessageError.IsIncomplete]
  rw [funext read_eq]
  exact signatures.bind local_readSignatures fun _ => (Reader.discerning_map_iff _).mpr messages

/-- An input that cannot be read off its front cannot be read as a whole. -/
theorem ofBytes_of_error {input : Bytes} {fault : TransactionError}
    (failed : Transaction.read input = .error fault) : ofBytes input = .error fault := by
  rw [ofBytes, Reader.whole, failed]

/-- A transaction cannot be read off the front of an input exactly when its reader fails. -/
theorem ofBytesPartial_eq_error_iff (input : Bytes) (fault : TransactionError) :
    ofBytesPartial input = .error fault ↔ Transaction.read input = .error fault := by
  rw [ofBytesPartial, Reader.counted]
  cases Transaction.read input <;> simp

/-- What is read of a proper front of a written transaction: it lacks signatures if it ends before
they do, and otherwise its message is read from what there is of it. -/
theorem ofBytes_front {transaction : Transaction} {front behind : Bytes}
    (recognizable : transaction.message.IsRecognizable)
    (written : transaction.toBytes = .ok (front ++ behind)) (shorter : behind ≠ []) :
    (front.length < Wire.runSize transaction.signatures.length 64 →
      ofBytes front = .error .notEnoughSignatureBytes) ∧
    (Wire.runSize transaction.signatures.length 64 ≤ front.length →
      (V0Message.EndsAfterInstructions (transaction.messagePart front) →
        ofBytes front = .ok transaction.withoutLookups) ∧
      (¬V0Message.EndsAfterInstructions (transaction.messagePart front) →
        ofBytes front = .error (.message .bufferTooSmall))) := by
  obtain ⟨_, count, message, counted, messageWritten, spelled⟩ :=
    (toBytes_eq_ok_iff transaction _).mp written
  rw [← List.append_assoc] at spelled
  have signaturesRead := reads_readSignatures counted
  have size := length_signatures transaction counted
  constructor
  · intro early
    obtain ⟨missing, whole, _⟩ | ⟨part, rfl, _⟩ := List.append_eq_append_iff.mp spelled
    · have something : missing ≠ [] := by
        rintro rfl
        rw [whole, List.append_nil] at size
        omega
      rw [whole] at signaturesRead
      have lacking : Discerning (· = .notEnoughSignatureBytes) readSignatures :=
        discerning_readSignatures fun fault => by cases fault <;> simp [countFault]
      obtain ⟨fault, failed, rfl⟩ :=
        (lacking.settled local_readSignatures).error_of_front signaturesRead something
      refine ofBytes_of_error ?_
      rw [read_eq, failed]
      rfl
    · rw [List.length_append] at early
      omega
  · intro late
    obtain ⟨part, rfl, rfl⟩ : ∃ part, front = count ++
        (transaction.signatures.map Signature.toBytes).flatten ++ part ∧
        message = part ++ behind := by
      obtain ⟨missing, whole, rfl⟩ | ⟨part, whole, same⟩ := List.append_eq_append_iff.mp spelled
      · have nothing : missing = [] := by
          rw [whole, List.length_append] at size
          exact List.length_eq_zero_iff.mp (by omega)
        subst nothing
        exact ⟨[], by simpa using whole.symm, by simp⟩
      · exact ⟨part, whole, same⟩
    rw [List.append_assoc, messagePart_eq transaction counted]
    obtain ⟨ending, breaking⟩ := Message.read_front recognizable messageWritten shorter
    have step : Transaction.read
        (count ++ ((transaction.signatures.map Signature.toBytes).flatten ++ part)) = (do
          let (message, rest) ← (Message.read part).mapError TransactionError.message
          return ({ signatures := transaction.signatures, message }, rest)) := by
      rw [read_eq, ← List.append_assoc, signaturesRead]
      rfl
    constructor
    · intro ends
      refine (Reader.whole_eq_ok_iff _ _ _ _).mpr ?_
      rw [step, ending ends]
      rfl
    · intro goesOn
      refine ofBytes_of_error ?_
      rw [step, breaking goesOn]
      rfl

/-- Incomplete input is told apart from bad input. Where a transaction cannot be read for lack of
bytes, some bytes complete it; where it cannot be read for another reason, no bytes behind it change
that. A written transaction that was cut short is always taken for incomplete, except if it is of
version 0 and was cut just before its lookups, which leaves a transaction without any. -/
theorem incomplete_or_bad :
    (∀ (input : Bytes) (fault : TransactionError), ofBytesPartial input = .error fault →
      fault.IsIncomplete → ∃ tail transaction, ofBytes (input ++ tail) = .ok transaction) ∧
    (∀ (input : Bytes) (fault : TransactionError), ofBytesPartial input = .error fault →
      ¬fault.IsIncomplete → ∀ tail, ofBytesPartial (input ++ tail) = .error fault) ∧
    (∀ (transaction : Transaction) (front behind : Bytes), transaction.message.IsRecognizable →
      transaction.toBytes = .ok (front ++ behind) → behind ≠ [] →
        (front.length < Wire.runSize transaction.signatures.length 64 →
          ofBytes front = .error .notEnoughSignatureBytes) ∧
        (Wire.runSize transaction.signatures.length 64 ≤ front.length →
          (V0Message.EndsAfterInstructions (transaction.messagePart front) →
            ofBytes front = .ok transaction.withoutLookups) ∧
          (¬V0Message.EndsAfterInstructions (transaction.messagePart front) →
            ofBytes front = .error (.message .bufferTooSmall)))) := by
  refine ⟨?_, ?_, fun transaction front behind => ofBytes_front⟩
  · intro input fault failed incomplete
    rw [ofBytesPartial_eq_error_iff] at failed
    obtain ⟨tail, transaction, completed⟩ := discerning_read.completed failed incomplete
    exact ⟨tail, transaction, (Reader.whole_eq_ok_iff _ _ _ _).mpr completed⟩
  · intro input fault failed bad tail
    rw [ofBytesPartial_eq_error_iff] at failed ⊢
    exact discerning_read.refused failed bad tail

/-- A transaction with one signature and one lookup. -/
def cutSample : Transaction := ⟨[Signature.zero], .v0 (sampleSpelled [⟨.numbered 5, [2], []⟩])⟩

/-- Its lookup as it is written, without the count in front. -/
def cutSampleLookup : Bytes := (Address.numbered 5).toBytes ++ [1, 2, 0]

/-- A number of signatures without signatures can be completed, and an unknown version cannot. The
sample is read as incomplete when cut behind the number of its signatures or behind the count of its
lookups, and as a transaction without lookups when cut before that count. -/
theorem incomplete_or_bad_sample :
    (∃ tail transaction, ofBytes ([1] ++ tail) = .ok transaction) ∧
    (∀ tail, ofBytesPartial ([0, 0x81] ++ tail) = .error (.message (.unsupportedVersion 1))) ∧
    cutSample.toBytes =
      .ok ([1] ++ Signature.zero.toBytes ++ sampleSpelling ++ [1] ++ cutSampleLookup) ∧
    ofBytes [1] = .error .notEnoughSignatureBytes ∧
    ofBytes ([1] ++ Signature.zero.toBytes ++ sampleSpelling) = .ok cutSample.withoutLookups ∧
    ofBytes ([1] ++ Signature.zero.toBytes ++ sampleSpelling ++ [1]) =
      .error (.message .bufferTooSmall) := by
  obtain ⟨completed, refused, cut⟩ := incomplete_or_bad
  have written : cutSample.toBytes =
      .ok ([1] ++ Signature.zero.toBytes ++ sampleSpelling ++ [1] ++ cutSampleLookup) := by
    decide +kernel
  have common : (sampleSpelled []).toLegacyMessage.toBytes = .ok sampleSpelling.tail := rfl
  have ends : ∀ others, V0Message.EndsAfterInstructions (sampleSpelling ++ others) ↔ others = [] :=
    fun others => V0Message.endsAfterInstructions_iff common
  have part : ∀ others, cutSample.messagePart
      ([1] ++ Signature.zero.toBytes ++ sampleSpelling ++ others) = sampleSpelling ++ others :=
    fun _ => rfl
  refine ⟨completed [1] .notEnoughSignatureBytes rfl (Or.inl rfl),
    refused [0, 0x81] _ rfl (by simp [TransactionError.IsIncomplete]), written, ?_, ?_, ?_⟩
  · exact (cut cutSample [1] (Signature.zero.toBytes ++ sampleSpelling ++ [1] ++ cutSampleLookup)
      trivial written (by simp)).1 (by decide)
  · refine ((cut cutSample ([1] ++ Signature.zero.toBytes ++ sampleSpelling)
      ([1] ++ cutSampleLookup) trivial written (by simp)).2 (by decide +kernel)).1 ?_
    rw [← List.append_nil ([1] ++ Signature.zero.toBytes ++ sampleSpelling), part, ends]
  · refine ((cut cutSample ([1] ++ Signature.zero.toBytes ++ sampleSpelling ++ [1])
      cutSampleLookup trivial written (by simp [cutSampleLookup])).2 (by decide +kernel)).2 ?_
    rw [part, ends]
    simp

end Transaction

end Transact
