import Transact.Proofs.WrittenMessages
import Transact.Transaction.Wire

/-!
# Written transactions are read back

A written transaction is its signatures and its message, with nothing behind them that would mark
its end. It is read back nonetheless whatever follows (`Transaction.reads_of_toBytes`), since each
part says how long it is. So transactions can be written one after the other and read one after the
other (`Transaction.ofBytesInTurn`).

The main statement, `Transaction.wire_roundTrip`, collects what follows for each way of reading.
-/

namespace Transact

open Reader (Reads)

/-- A message read off the front of an input takes the bytes that were written for it. -/
theorem Message.ofBytesPartial_of_toBytes {message : Message} {bytes : Bytes}
    (recognizable : message.IsRecognizable) (written : message.toBytes = .ok bytes) (tail : Bytes) :
    Message.ofBytesPartial (bytes ++ tail) = .ok (message.withoutEmptyLookups, bytes.length) :=
  (Message.reads_of_toBytes recognizable written).counted_eq tail

namespace Transaction

/-- The transaction without the lookups that select nothing. -/
def withoutEmptyLookups (transaction : Transaction) : Transaction :=
  { transaction with message := transaction.message.withoutEmptyLookups }

/-- A signature is read from its bytes. -/
theorem reads_signature (signature : Signature) :
    Reads readSignature signature.toBytes signature :=
  Reader.reads_block_map TransactionError.notEnoughSignatureBytes Signature.mk signature.bytes

/-- The number of signatures is read from its writing. -/
theorem reads_count {count : Nat} {bytes : Bytes}
    (written : CompactLength.encode count = .ok bytes) : Reads readCount bytes count := by
  intro tail
  rw [readCount, CompactLength.reads_of_encode written tail]

/-- A transaction is read from its writing, without its empty lookups and whatever follows, as long
as the first byte of its message tells the format. -/
theorem reads_of_toBytes {transaction : Transaction} {bytes : Bytes}
    (recognizable : transaction.message.IsRecognizable)
    (written : transaction.toBytes = .ok bytes) :
    Reads Transaction.read bytes transaction.withoutEmptyLookups := by
  simp only [toBytes, messageData, Outcome.bind_eq_ok_iff, Outcome.mapError_eq_ok_iff] at written
  obtain ⟨_, _, message, messageWritten, count, counted, returned⟩ := written
  cases returned
  have signatures := Reader.reads_many_map reads_signature transaction.signatures
  intro tail
  rw [Transaction.read]
  simp only [List.append_assoc, reads_count counted _, signatures _,
    Message.reads_of_toBytes recognizable messageWritten _, Except.mapError, bind, Except.bind]
  rfl

/-- Read a number of transactions that stand one after the other, each off the front of what the one
before it left. -/
def ofBytesInTurn : Nat → Bytes → Except TransactionError (List Transaction × Bytes)
  | 0, input => .ok ([], input)
  | count + 1, input => do
    let (transaction, used) ← ofBytesPartial input
    let (others, rest) ← ofBytesInTurn count (input.drop used)
    return (transaction :: others, rest)

/-- Transactions that were written one after the other are read back in turn. -/
theorem ofBytesInTurn_flatten {transactions : List Transaction} {parts : List Bytes}
    (written : List.Forall₂ (fun transaction bytes => transaction.toBytes = .ok bytes) transactions
      parts)
    (recognizable : ∀ transaction ∈ transactions, transaction.message.IsRecognizable)
    (tail : Bytes) :
    ofBytesInTurn transactions.length (parts.flatten ++ tail) =
      .ok (transactions.map withoutEmptyLookups, tail) := by
  induction written with
  | nil => rfl
  | @cons transaction part transactions parts first _ inductionHypothesis =>
    have taken : ofBytesPartial (part ++ (parts.flatten ++ tail)) =
        .ok (transaction.withoutEmptyLookups, part.length) :=
      (reads_of_toBytes (recognizable _ List.mem_cons_self) first).counted_eq _
    have others := inductionHypothesis fun other member =>
      recognizable other (List.mem_cons_of_mem _ member)
    rw [List.length_cons, List.flatten_cons, List.append_assoc, ofBytesInTurn, taken]
    simp only [bind, Except.bind, List.drop_left, others]
    rfl

/-- What is written is read back without empty lookups, whatever follows: messages and transactions
off the front of an input, a transaction that spans its input, and transactions one after the other.
Bytes behind a transaction that should span its input are refused. -/
theorem wire_roundTrip :
    (∀ (message : Message) (bytes tail : Bytes),
      message.IsRecognizable → message.toBytes = .ok bytes →
        Message.ofBytesPartial (bytes ++ tail) = .ok (message.withoutEmptyLookups, bytes.length)) ∧
    (∀ (transaction : Transaction) (bytes : Bytes),
      transaction.message.IsRecognizable → transaction.toBytes = .ok bytes →
        (∀ tail, ofBytesPartial (bytes ++ tail) =
          .ok (transaction.withoutEmptyLookups, bytes.length)) ∧
        ofBytes bytes = .ok transaction.withoutEmptyLookups ∧
        ∀ tail, tail ≠ [] → ofBytes (bytes ++ tail) = .error .trailingData) ∧
    (∀ (transactions : List Transaction) (parts : List Bytes) (tail : Bytes),
      (∀ transaction ∈ transactions, transaction.message.IsRecognizable) →
        transactions.mapM toBytes = .ok parts →
          ofBytesInTurn transactions.length (parts.flatten ++ tail) =
            .ok (transactions.map withoutEmptyLookups, tail)) := by
  refine ⟨?_, ?_, ?_⟩
  · intro message bytes tail recognizable written
    exact Message.ofBytesPartial_of_toBytes recognizable written tail
  · intro transaction bytes recognizable written
    have reads := reads_of_toBytes recognizable written
    exact ⟨reads.counted_eq, reads.whole_eq _, fun tail => reads.whole_append_eq _⟩
  · intro transactions parts tail recognizable written
    exact ofBytesInTurn_flatten ((Outcome.mapM_eq_ok_iff _ _ _).mp written) recognizable tail

/-- A transaction of two lookups, of which the second selects nothing. -/
def sample : Transaction where
  signatures := [Signature.zero]
  message := .v0
    { header := ⟨1, 0, 1⟩, accountKeys := [.numbered 1, .numbered 9], recentBlockhash := Hash.zero,
      instructions := [⟨1, [0, 2], [7]⟩],
      addressTableLookups := [⟨.numbered 5, [2], []⟩, ⟨.numbered 6, [], []⟩] }

/-- The sample and its message are written, and the sample is read back twice in turn, each time
with one lookup left. -/
theorem wire_roundTrip_sample :
    ∃ message bytes,
      sample.message.toBytes = .ok message ∧ sample.toBytes = .ok bytes ∧
      sample.withoutEmptyLookups.message.addressTableLookups? = some [⟨.numbered 5, [2], []⟩] ∧
      Message.ofBytesPartial (message ++ [7]) =
        .ok (sample.withoutEmptyLookups.message, message.length) ∧
      ofBytesPartial (bytes ++ [7]) = .ok (sample.withoutEmptyLookups, bytes.length) ∧
      ofBytes bytes = .ok sample.withoutEmptyLookups ∧
      ofBytes (bytes ++ [7]) = .error .trailingData ∧
      ofBytesInTurn 2 (bytes ++ bytes) =
        .ok ([sample.withoutEmptyLookups, sample.withoutEmptyLookups], []) := by
  obtain ⟨message, messageWritten⟩ : ∃ message, sample.message.toBytes = .ok message := ⟨_, rfl⟩
  obtain ⟨bytes, written⟩ : ∃ bytes, sample.toBytes = .ok bytes := ⟨_, rfl⟩
  have recognizable : sample.message.IsRecognizable := trivial
  have writtenTwice : [sample, sample].mapM toBytes = .ok [bytes, bytes] := by
    rw [Outcome.mapM_eq_ok_iff]
    exact .cons written (.cons written .nil)
  obtain ⟨messages, transactions, inTurn⟩ := wire_roundTrip
  obtain ⟨offTheFront, whole, trailing⟩ := transactions sample bytes recognizable written
  have twice := inTurn [sample, sample] [bytes, bytes] []
    (by simp only [List.mem_cons, List.not_mem_nil, or_false, or_self, forall_eq, recognizable])
    writtenTwice
  exact ⟨message, bytes, messageWritten, written, rfl,
    messages sample.message message [7] recognizable messageWritten, offTheFront [7], whole,
    trailing [7] (by decide), by simpa using twice⟩

end Transaction

end Transact
