import Transact.Proofs.Arrival
import Transact.Proofs.SaneMessages

/-!
# Everyone who is named as a signer has signed

Who signs follows from places: an account of an instruction is reported as a signer when its place
is below the number of signers. Its key comes from the sequence of the carried and the loaded keys,
while signatures are checked under the first of the carried keys alone. The check of a message keeps
the two together, since it admits no more signers than there are carried keys.

The main statement, `Transaction.authorized`, is that a transaction that passes its check and is
valid has been signed by whoever pays and by every account that its instructions report as a signer.
A loaded key is never reported as one.
-/

namespace Transact

namespace CompiledInstruction

variable {keys : AccountKeys} {isSigner isWritable : Nat → Bool}

/-- The accounts of a decompiled instruction have the keys at their places, and those are signers
whose places are. -/
theorem accounts_of_decompile {compiled : CompiledInstruction} {instruction : Instruction}
    (succeeded : compiled.decompile keys isSigner isWritable = .ok instruction) :
    List.Forall₂ (fun index account => keys.toList[index.toNat]? = some account.address ∧
      account.isSigner = isSigner index.toNat) compiled.accounts instruction.accounts := by
  unfold decompile at succeeded
  split at succeeded
  · cases succeeded
  · obtain ⟨accounts, reported, returned⟩ := (Outcome.bind_eq_ok_iff _ _ _).mp succeeded
    cases returned
    refine ((Outcome.mapM_eq_ok_iff _ _ _).mp reported).imp ?_
    intro index account made
    unfold CompiledInstruction.account at made
    split at made
    · cases made
    · rename_i address found
      cases made
      rw [AccountKeys.get?_eq] at found
      exact ⟨found, rfl⟩

end CompiledInstruction

namespace Message

/-- The instructions that a message stands for, given the tables that it may refer to. -/
def decompile (message : Message) (tables : List LookupTable) :
    Except MessageError (List Instruction) :=
  match message with
  | .legacy message => message.decompile
  | .v0 message => message.decompile tables

/-- The keys behind those that the message carries. -/
def loadedKeys (message : Message) (tables : List LookupTable) :
    Except MessageError (List Address) :=
  match message with
  | .legacy _ => .ok []
  | .v0 message =>
    (message.loadAddresses tables).map fun loaded => loaded.writable ++ loaded.readonly

/-- The accounts of decompiled instructions have the keys at their places, and those are signers
whose places are below the number of signers. -/
theorem accounts_of_decompile {message : Message} {tables : List LookupTable}
    {instructions : List Instruction} (succeeded : message.decompile tables = .ok instructions) :
    ∃ loaded, message.loadedKeys tables = .ok loaded ∧
      List.Forall₂ (fun compiled instruction => List.Forall₂ (fun index account =>
          (message.staticAccountKeys ++ loaded)[index.toNat]? = some account.address ∧
            account.isSigner = message.isSigner index.toNat)
        compiled.accounts instruction.accounts) message.instructions instructions := by
  cases message with
  | legacy message =>
    refine ⟨[], rfl, ((Outcome.mapM_eq_ok_iff _ _ _).mp succeeded).imp ?_⟩
    intro compiled instruction one
    have accounts := CompiledInstruction.accounts_of_decompile one
    rw [AccountKeys.toList_none] at accounts
    rw [List.append_nil]
    exact accounts
  | v0 message =>
    obtain ⟨loaded, resolved, decompiled⟩ := (Outcome.bind_eq_ok_iff _ _ _).mp succeeded
    refine ⟨loaded.writable ++ loaded.readonly, ?_,
      ((Outcome.mapM_eq_ok_iff _ _ _).mp decompiled).imp ?_⟩
    · rw [loadedKeys, resolved]
      rfl
    · intro compiled instruction one
      have accounts := CompiledInstruction.accounts_of_decompile one
      rw [AccountKeys.toList_some, List.append_assoc] at accounts
      exact accounts

/-- In a checked message, the places of signers are those of carried keys. -/
theorem lt_length_of_isSigner {message : Message} (sane : message.sanitize = .ok ()) {index : Nat}
    (signer : message.isSigner index = true) :
    index < message.requiredSignatures ∧ index < message.staticAccountKeys.length := by
  obtain ⟨loaded, coherent⟩ := exists_coherent_of_sanitize sane
  have below : index < message.common.header.signers := of_decide_eq_true signer
  have described := coherent.described
  refine ⟨below, ?_⟩
  rw [staticAccountKeys]
  omega

end Message

namespace Transaction

/-- The key of a slot has signed some data: it is among those that must sign, and the signature in
the slot is accepted under it. -/
structure SignedAt [SignatureScheme] (transaction : Transaction) (data : Bytes) (slot : Nat)
    (key : Address) : Prop where
  /-- The slot is one of those that must be filled. -/
  required : slot < transaction.message.requiredSignatures
  /-- The message carries the key at the place of the slot. -/
  carried : transaction.message.staticAccountKeys[slot]? = some key
  /-- The slot holds a signature that the scheme accepts. -/
  accepted : ∃ signature, transaction.signatures[slot]? = some signature ∧
    SignatureScheme.Accepts key.toBytes data signature.bytes

/-- In a valid transaction every key that must sign has signed. -/
theorem signedAt_of_verify [SignatureScheme] {transaction : Transaction}
    (valid : transaction.verify = .ok true) :
    ∃ data, transaction.message.toBytes = .ok data ∧
      ∀ slot key, slot < transaction.message.requiredSignatures →
        transaction.message.staticAccountKeys[slot]? = some key →
          transaction.SignedAt data slot key := by
  obtain ⟨keys, data, required, written, accepted⟩ := (verify_eq_ok_true_iff _).mp valid
  obtain ⟨rfl, _⟩ := (Message.requiredSigners?_eq_some_iff _ _).mp required
  refine ⟨data, written, fun slot key below carried => ⟨below, carried, ?_⟩⟩
  rw [← List.getElem?_take_of_lt below] at carried
  exact exists_related_of_getElem? accepted carried

/-- An account behind the keys that a message carries is a loaded one, and it is not reported as a
signer. -/
def LoadedUnsigned (carried loaded : List Address) (index : UInt8) (account : AccountMeta) : Prop :=
  carried.length ≤ index.toNat →
    loaded[index.toNat - carried.length]? = some account.address ∧ account.isSigner = false

/-- A transaction that passes its check and is valid is signed by whoever pays, in the first slot,
and by every account that is reported as a signer when its instructions are decompiled with any
tables. Loaded accounts are not reported as signers. -/
theorem authorized [SignatureScheme] (transaction : Transaction)
    (sane : transaction.sanitize = .ok ()) (valid : transaction.verify = .ok true) :
    ∃ data, transaction.message.toBytes = .ok data ∧
      (∃ payer, transaction.message.feePayer? = some payer ∧
        transaction.SignedAt data 0 payer) ∧
      ∀ tables instructions, transaction.message.decompile tables = .ok instructions →
        (∀ instruction ∈ instructions, ∀ account ∈ instruction.accounts,
          account.isSigner = true → ∃ slot, transaction.SignedAt data slot account.address) ∧
        ∃ loaded, transaction.message.loadedKeys tables = .ok loaded ∧
          List.Forall₂ (fun compiled instruction =>
              List.Forall₂ (LoadedUnsigned transaction.message.staticAccountKeys loaded)
                compiled.accounts instruction.accounts)
            transaction.message.instructions instructions := by
  rw [sanitize, Outcome.check_eq_ok_iff, Outcome.mapError_eq_ok_iff] at sane
  obtain ⟨_, saneMessage⟩ := sane
  obtain ⟨data, written, signed⟩ := signedAt_of_verify valid
  obtain ⟨payer, pays, first, someone⟩ := Message.exists_feePayer_of_sanitize saneMessage
  refine ⟨data, written, ⟨payer, pays, signed 0 payer someone first⟩, ?_⟩
  intro tables instructions decompiled
  obtain ⟨loaded, resolved, reported⟩ := Message.accounts_of_decompile decompiled
  constructor
  · intro instruction instructionMember account accountMember signer
    obtain ⟨compiled, _, accounts⟩ := exists_related_of_mem reported instructionMember
    obtain ⟨index, _, holds, same⟩ := exists_related_of_mem accounts accountMember
    obtain ⟨below, carried⟩ := Message.lt_length_of_isSigner saneMessage (same ▸ signer)
    rw [List.getElem?_append_left carried] at holds
    exact ⟨index.toNat, signed _ _ below holds⟩
  · refine ⟨loaded, resolved, reported.imp fun compiled instruction accounts => accounts.imp ?_⟩
    rintro index account ⟨holds, same⟩ behind
    rw [List.getElem?_append_right behind] at holds
    refine ⟨holds, ?_⟩
    -- The place of a signer would be that of a carried key.
    by_contra signer
    rw [Bool.not_eq_false, same] at signer
    have carried := (Message.lt_length_of_isSigner saneMessage signer).2
    omega

/-- A table that the message of the two key pairs loads from. -/
def sampleLoaded : LookupTable := ⟨.numbered 5, [.numbered 4]⟩

/-- The instruction of the message. -/
def sampleReported : Instruction :=
  ⟨.numbered 9, [⟨sampleCosigner.publicKey, true, false⟩, ⟨.numbered 4, false, true⟩,
    ⟨samplePayer.publicKey, true, true⟩], [7]⟩

/-- The message of the two key pairs, without the lookup that selects nothing, is signed by both and
passes its check. Both are reported as signers, and the account that is loaded is not. -/
theorem authorized_sample : ∃ (transaction : Transaction) (data : Bytes),
    transaction.message = sampleCosigned [⟨.numbered 5, [0], []⟩] ∧
    transaction.sanitize = .ok () ∧ transaction.verify = .ok true ∧
    transaction.message.toBytes = .ok data ∧
    transaction.message.feePayer? = some samplePayer.publicKey ∧
    transaction.SignedAt data 0 samplePayer.publicKey ∧
    transaction.message.decompile [sampleLoaded] = .ok [sampleReported] ∧
    (∃ slot, transaction.SignedAt data slot sampleCosigner.publicKey) ∧
    List.Forall₂ (LoadedUnsigned (sampleKeypairs.map Keypair.publicKey ++ [.numbered 9])
      [.numbered 4]) [1, 3, 0] sampleReported.accounts := by
  obtain ⟨signed, made⟩ := sign_sampleCosigned (List.Perm.refl sampleKeypairs)
  obtain ⟨isSigned, signedValid⟩ := verify_of_sign made accepted_sampleCosigned
  have message : signed.withoutEmptyLookups.message = sampleCosigned [⟨.numbered 5, [0], []⟩] := by
    rw [withoutEmptyLookups, isSigned]
    rfl
  have valid := verify_withoutEmptyLookups signedValid
  have sane : signed.withoutEmptyLookups.sanitize = .ok () := by
    have counted := length_signatures_of_verify valid
    rw [sanitize, Outcome.check_eq_ok_iff, checkSignatureCount_eq_ok_iff,
      Outcome.mapError_eq_ok_iff, message]
    exact ⟨message ▸ counted, by decide +kernel⟩
  have decompiled : signed.withoutEmptyLookups.message.decompile [sampleLoaded] =
      .ok [sampleReported] := by
    rw [message]
    rfl
  obtain ⟨data, written, ⟨payer, pays, first⟩, reports⟩ := authorized _ sane valid
  obtain ⟨signs, loaded, resolved, unsigned⟩ := reports _ _ decompiled
  have cosigned := signs _ List.mem_cons_self _ List.mem_cons_self rfl
  rw [message] at pays resolved unsigned
  cases pays
  cases resolved
  obtain ⟨_⟩ | ⟨loadedUnsigned, _⟩ := unsigned
  exact ⟨_, data, message, sane, valid, written, message ▸ rfl, first, decompiled, cosigned,
    loadedUnsigned⟩

end Transaction

end Transact
