import Transact.Proofs.AcceptedBytes
import Transact.Proofs.SignatureSlots

/-!
# What is signed is what arrives

A receiver does not check signatures over the bytes that arrived. It reads a message from them and
writes that message again. Reading leaves out the lookups that select nothing, but so does writing,
so the receiver checks the bytes that were signed.

The main statement, `Transaction.signed_arrives`, follows a message from its key pairs to the
receiver. It holds of every signature scheme that accepts what these key pairs sign
(`Keypair.Accepted`). From there on everything is proved for whatever is valid, however its
signatures were made (`Transaction.arrives_of_verify`).
-/

namespace Transact

/-- The scheme accepts the signature that it makes of some data with the key pair. -/
def Keypair.Accepted [SignatureScheme] (keypair : Keypair) (data : Bytes) : Prop :=
  SignatureScheme.Accepts keypair.publicKey.toBytes data (SignatureScheme.sign keypair.key data)

instance [SignatureScheme] (keypair : Keypair) (data : Bytes) :
    Decidable (keypair.Accepted data) :=
  inferInstanceAs (Decidable (SignatureScheme.Accepts _ _ _))

namespace Message

/-- A message is written without its empty lookups, so leaving them out changes nothing. -/
theorem toBytes_withoutEmptyLookups (message : Message) :
    message.withoutEmptyLookups.toBytes = message.toBytes := by
  cases message with
  | legacy message => rfl
  | v0 message =>
    have written : message.withoutEmptyLookups.writtenLookups = message.writtenLookups := by
      simp only [V0Message.withoutEmptyLookups, V0Message.writtenLookups, List.filter_filter,
        Bool.and_self]
    simp only [withoutEmptyLookups, toBytes, V0Message.toBytes, written]
    rfl

/-- Who must sign does not depend on the lookups. -/
theorem requiredSigners?_withoutEmptyLookups (message : Message) :
    message.withoutEmptyLookups.requiredSigners? = message.requiredSigners? := by
  cases message with
  | legacy message => rfl
  | v0 message => rfl

/-- A byte counts the keys that must sign, so there are at most 255 of them. -/
theorem requiredSignatures_lt (message : Message) : message.requiredSignatures < 256 :=
  message.header.numRequiredSignatures.toNat_lt

end Message

namespace Transaction

/-- A transaction is written, and read back as another with the same signatures over the same data.
Both are valid. -/
structure Arrives [SignatureScheme] (sent : Transaction) (bytes : Bytes)
    (received : Transaction) : Prop where
  /-- The bytes are what is written for the one that is sent. -/
  written : sent.toBytes = .ok bytes
  /-- The one that is received is read from them. -/
  read : Transaction.ofBytes bytes = .ok received
  /-- The signatures are the same. -/
  signatures_eq : received.signatures = sent.signatures
  /-- What they cover is the same. -/
  messageData_eq : received.messageData = sent.messageData
  /-- The sender finds all signatures valid. -/
  sent_valid : sent.verify = .ok true
  /-- The receiver finds all signatures valid. -/
  received_valid : received.verify = .ok true

/-- With the required number of signatures a transaction is written whenever its message is. -/
theorem exists_toBytes {transaction : Transaction} {data : Bytes}
    (counted : transaction.signatures.length = transaction.message.requiredSignatures)
    (written : transaction.message.toBytes = .ok data) :
    ∃ bytes, transaction.toBytes = .ok bytes := by
  have few := transaction.message.requiredSignatures_lt
  have encoded : CompactLength.encode transaction.signatures.length =
      .ok (CompactLength.groups transaction.signatures.length) := by
    rw [CompactLength.encode, if_pos]
    unfold CompactLength.maximum
    omega
  exact ⟨_, (toBytes_eq_ok_iff _ _).mpr
    ⟨(checkSignatureCount_eq_ok_iff _).mpr counted, _, data, encoded, written, rfl⟩⟩

/-- Leaving out empty lookups keeps a transaction valid. -/
theorem verify_withoutEmptyLookups [SignatureScheme] {transaction : Transaction}
    (valid : transaction.verify = .ok true) :
    transaction.withoutEmptyLookups.verify = .ok true := by
  obtain ⟨keys, data, required, written, accepted⟩ := (verify_eq_ok_true_iff _).mp valid
  refine (verify_eq_ok_true_iff _).mpr ⟨keys, data, ?_, ?_, accepted⟩
  · rw [withoutEmptyLookups, Message.requiredSigners?_withoutEmptyLookups, required]
  · rw [withoutEmptyLookups, Message.toBytes_withoutEmptyLookups, written]

/-- A valid transaction arrives, as long as the first byte of its message tells the format. -/
theorem arrives_of_verify [SignatureScheme] {transaction : Transaction}
    (recognizable : transaction.message.IsRecognizable)
    (valid : transaction.verify = .ok true) :
    ∃ bytes, Arrives transaction bytes transaction.withoutEmptyLookups := by
  obtain ⟨_, _, _, written, _⟩ := (verify_eq_ok_true_iff _).mp valid
  obtain ⟨bytes, bytesWritten⟩ := exists_toBytes (length_signatures_of_verify valid) written
  refine ⟨bytes, bytesWritten, (reads_of_toBytes recognizable bytesWritten).whole_eq _, rfl, ?_,
    valid, verify_withoutEmptyLookups valid⟩
  rw [messageData, messageData, withoutEmptyLookups, Message.toBytes_withoutEmptyLookups]

/-- Key pairs whose signatures are accepted make valid transactions of the messages they sign. -/
theorem verify_of_sign [Base58.Converter 32 44] [SignatureScheme] {message : Message}
    {keypairs : List Keypair} {transaction : Transaction}
    (signed : sign message (Signers.ofList (keypairs.map Keypair.signer)) = .ok transaction)
    (accepted : ∀ data, message.toBytes = .ok data → ∀ keypair ∈ keypairs, keypair.Accepted data) :
    transaction.message = message ∧ transaction.verify = .ok true := by
  obtain ⟨keys, data, required, _, written, present, rfl⟩ :=
    (sign_eq_ok_iff (Keypair.infallible_of_mem_map keypairs) _ _).mp signed
  refine ⟨rfl, (verify_eq_ok_true_iff _).mpr ⟨keys, data, required, written, ?_⟩⟩
  rw [List.forall₂_map_right_iff, List.forall₂_same]
  intro key member
  obtain ⟨signer, isSigner, holds, under⟩ := Signers.exists_signatureUnder (present key member) data
  obtain ⟨keypair, isKeypair, rfl⟩ := List.mem_map.mp isSigner
  rw [under, ← holds]
  exact accepted data written keypair isKeypair

/-- What key pairs sign arrives. A transaction signed from a message carries that message, is
written and read back with its signatures over the same data, and is valid before and after. The raw
form of instructions that fewer than 128 key pairs sign is such a writing; with more of them the
first byte of the message would be taken for a mark. -/
theorem signed_arrives [Base58.Converter 32 44] [SignatureScheme] :
    (∀ (message : Message) (keypairs : List Keypair) (transaction : Transaction),
      message.IsRecognizable →
      (∀ data, message.toBytes = .ok data → ∀ keypair ∈ keypairs, keypair.Accepted data) →
      sign message (Signers.ofList (keypairs.map Keypair.signer)) = .ok transaction →
        transaction.message = message ∧
          ∃ bytes received, Arrives transaction bytes received) ∧
    ∀ (payer : Option Address) (instructions : List Instruction) (keypairs : List Keypair)
      (recentBlockhash : Hash) (bytes : Bytes),
      keypairs.length < 128 →
      (∀ message, LegacyMessage.compile payer instructions recentBlockhash = .ok message →
        ∀ data, message.toBytes = .ok data → ∀ keypair ∈ keypairs, keypair.Accepted data) →
      createRaw payer instructions (Signers.ofList (keypairs.map Keypair.signer)) recentBlockhash =
        .ok bytes →
        ∃ message transaction received,
          LegacyMessage.compile payer instructions recentBlockhash = .ok message ∧
          sign (.legacy message) (Signers.ofList (keypairs.map Keypair.signer)) =
            .ok transaction ∧
          Arrives transaction bytes received := by
  constructor
  · intro message keypairs transaction recognizable accepted signed
    obtain ⟨rfl, valid⟩ := verify_of_sign signed accepted
    obtain ⟨bytes, arrives⟩ := arrives_of_verify recognizable valid
    exact ⟨rfl, bytes, _, arrives⟩
  · intro payer instructions keypairs recentBlockhash bytes few accepted created
    simp only [createRaw, Outcome.bind_eq_ok_iff, Outcome.mapError_eq_ok_iff] at created
    obtain ⟨message, compiled, transaction, signed, written⟩ := created
    obtain ⟨isMessage, valid⟩ := verify_of_sign signed (accepted message compiled)
    have counted := length_eq_of_sign (Keypair.infallible_of_mem_map keypairs) signed
    have recognizable : transaction.message.IsRecognizable := by
      rw [List.length_map] at counted
      rw [isMessage]
      exact Nat.lt_of_le_of_lt (Nat.le_of_eq counted.symm) few
    obtain ⟨others, arrives⟩ := arrives_of_verify recognizable valid
    have same : bytes = others := Except.ok.inj (written.symm.trans arrives.written)
    exact ⟨message, transaction, _, compiled, signed, same ▸ arrives⟩

/-- A key pair that pays. -/
def samplePayer : Keypair := .ofSecret (FixedList.replicate 32 1)

/-- Another one. -/
def sampleCosigner : Keypair := .ofSecret (FixedList.replicate 32 2)

/-- Both of them. -/
def sampleKeypairs : List Keypair := [samplePayer, sampleCosigner]

/-- A message that both of them must sign. One of the accounts of its instruction is loaded. -/
def sampleCosigned (lookups : List TableLookup) : Message :=
  .v0 {
    header := ⟨2, 1, 1⟩
    accountKeys := sampleKeypairs.map Keypair.publicKey ++ [.numbered 9]
    recentBlockhash := Hash.zero
    instructions := [⟨2, [1, 3, 0], [7]⟩]
    addressTableLookups := lookups }

/-- Its lookups, of which the second selects nothing. -/
def sampleLookups : List TableLookup := [⟨.numbered 5, [0], []⟩, ⟨.numbered 6, [], []⟩]

/-- The scheme accepts the signatures that it makes of it with the two key pairs. -/
theorem accepted_sampleCosigned : ∀ data, (sampleCosigned sampleLookups).toBytes = .ok data →
    ∀ keypair ∈ sampleKeypairs, keypair.Accepted data := by
  have evaluated : (sampleCosigned sampleLookups).toBytes.toOption.all (fun data =>
      decide (∀ keypair ∈ sampleKeypairs, keypair.Accepted data)) = true := by
    decide +kernel
  simpa only [Outcome.toOption_all_iff, decide_eq_true_iff] using evaluated

/-- The two key pairs sign it in whatever order they come. -/
theorem sign_sampleCosigned {keypairs : List Keypair} (order : keypairs.Perm sampleKeypairs) :
    ∃ transaction, sign (sampleCosigned sampleLookups)
      (Signers.ofList (keypairs.map Keypair.signer)) = .ok transaction := by
  obtain ⟨data, written⟩ : ∃ data, (sampleCosigned sampleLookups).toBytes = .ok data := ⟨_, rfl⟩
  refine ⟨_, (sign_eq_ok_iff (Keypair.infallible_of_mem_map keypairs) _ _).mpr
    ⟨sampleKeypairs.map Keypair.publicKey, data, rfl, ?_, written, ?_, rfl⟩⟩
  · simpa using order.length_eq
  · intro key member
    rw [List.map_map]
    exact (order.map Keypair.publicKey).mem_iff.mpr member

/-- An instruction that only the payer must sign. -/
def sampleInstruction : Instruction := ⟨.numbered 9, [⟨.numbered 2, false, true⟩], [7]⟩

/-- The message is signed by both key pairs, in another order than that of the slots, and the
instruction by the payer. Both arrive. -/
theorem signed_arrives_sample :
    (∃ transaction bytes received,
      sign (sampleCosigned sampleLookups)
        (Signers.ofList (sampleKeypairs.reverse.map Keypair.signer)) = .ok transaction ∧
      Arrives transaction bytes received) ∧
    ∃ bytes transaction received,
      createRaw (some samplePayer.publicKey) [sampleInstruction]
        (Signers.ofList ([samplePayer].map Keypair.signer)) Hash.zero = .ok bytes ∧
      Arrives transaction bytes received := by
  obtain ⟨ofMessage, ofInstructions⟩ := signed_arrives
  constructor
  · obtain ⟨transaction, signed⟩ := sign_sampleCosigned (List.reverse_perm sampleKeypairs)
    have recognizable : (sampleCosigned sampleLookups).IsRecognizable := trivial
    have accepted : ∀ data, (sampleCosigned sampleLookups).toBytes = .ok data →
        ∀ keypair ∈ sampleKeypairs.reverse, keypair.Accepted data := by
      intro data written keypair member
      exact accepted_sampleCosigned data written keypair (List.mem_reverse.mp member)
    obtain ⟨_, bytes, received, arrives⟩ := ofMessage _ _ _ recognizable accepted signed
    exact ⟨transaction, bytes, received, signed, arrives⟩
  · have accepted : (LegacyMessage.compile (some samplePayer.publicKey) [sampleInstruction]
        Hash.zero).toOption.all (fun message => message.toBytes.toOption.all fun data =>
          decide (∀ keypair ∈ [samplePayer], keypair.Accepted data)) = true := by
      decide +kernel
    have created : (createRaw (some samplePayer.publicKey) [sampleInstruction]
        (Signers.ofList ([samplePayer].map Keypair.signer)) Hash.zero).toOption.isSome = true := by
      decide +kernel
    simp only [Outcome.toOption_all_iff, decide_eq_true_iff] at accepted
    obtain ⟨bytes, created⟩ := Option.isSome_iff_exists.mp created
    rw [Outcome.toOption_eq_some_iff] at created
    obtain ⟨_, transaction, received, _, _, arrives⟩ :=
      ofInstructions _ _ _ _ _ (by decide) accepted created
    exact ⟨bytes, transaction, received, created, arrives⟩

end Transaction

end Transact
