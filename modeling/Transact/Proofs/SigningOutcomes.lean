import Transact.Proofs.Gathering

/-!
# What signing a message comes to

Signers make their signatures in the order in which they come, and each signature is then carried to
the slot of a key. Only the number of the signers is compared with that of the slots, and only the
keys of the slots are looked up among those of the signers. With signers that never fail this is
enough: it fills every slot, and by the first signer with its key.

What such signers make of a message can be told from their number and from what is signed under each
key (`Transaction.sign_eq`). The order of signers with different keys enters into neither, so it
makes no difference, whether signing succeeds or fails. The main statement is
`Transaction.signing_exact`.
-/

namespace Transact

open Signers (signatureUnder)

variable {signers order : List Signer}

/-- Where no two signers have the same key, what is signed under a key does not depend on the order
in which they come. -/
theorem Signers.signatureUnder_eq_of_perm (distinct : (signers.map Signer.pubkey).Nodup)
    (ordered : order.Perm signers) : signatureUnder order = signatureUnder signers := by
  have orderDistinct : (order.map Signer.pubkey).Nodup :=
    (ordered.map Signer.pubkey).nodup_iff.mpr distinct
  funext data key
  have found : (order.find? fun signer => signer.pubkey == key) =
      signers.find? fun signer => signer.pubkey == key := by
    apply Option.ext
    intro signer
    rw [find?_eq_some_iff orderDistinct, find?_eq_some_iff distinct, ordered.mem_iff]
  rw [signatureUnder, signatureUnder, found]

/-- The keys that must sign are the first of a message, if it has as many as it requires. -/
theorem Message.requiredSigners?_eq_some_take_iff (message : Message) (keys : List Address) :
    message.requiredSigners? = some keys ↔
      message.requiredSignatures ≤ message.staticAccountKeys.length ∧
        message.staticAccountKeys.take message.requiredSignatures = keys := by
  rw [requiredSigners?_eq_some_iff, and_comm, and_congr_left_iff]
  rintro rfl
  rw [List.length_take]
  omega

namespace Transaction

/-- Every slot of a transaction holds what the first of the signers with the key of the slot makes
of the written message, and nothing else is changed about the message. -/
structure FilledBy (signers : List Signer) (message : Message) (transaction : Transaction) :
    Prop where
  /-- The message is carried along. -/
  message_eq : transaction.message = message
  /-- There is a signature for each slot. -/
  counted : transaction.signatures.length = message.requiredSignatures
  /-- The signature in a slot is that of the first signer with its key. -/
  slots : ∃ data, message.toBytes = .ok data ∧
    ∀ slot < message.requiredSignatures, ∃ key signer,
      message.staticAccountKeys[slot]? = some key ∧
      signers.find? (fun signer => signer.pubkey == key) = some signer ∧
      transaction.signatures[slot]? = some (signer.sign data)

/-- What signers that never fail make of a message. Of its faults the first in this order is
reported: too few keys, too many signers, too few signers, a message that cannot be written, a key
that no signer has. -/
theorem sign_eq [Base58.Converter 32 44] (infallible : ∀ signer ∈ signers, signer.Infallible)
    (message : Message) :
    sign message (Signers.ofList signers) = (do
      let keys ← keysToSign message
      if signers.length > keys.length then throw .tooManySigners
      if signers.length < keys.length then throw .notEnoughSigners
      let data ← dataToSign message
      if ∀ key ∈ keys, key ∈ signers.map Signer.pubkey then
        return ⟨keys.map (signatureUnder signers data), message⟩
      else throw .keypairPubkeyMismatch) := by
  have sameLength : (signers.map Signer.pubkey).length = signers.length := List.length_map _
  rw [sign, Signers.tryPubkeys_ofList infallible, ← sameLength]
  refine bind_congr fun keys => ?_
  refine if_congr Iff.rfl rfl (if_congr Iff.rfl rfl (bind_congr fun data => ?_))
  rw [Signers.trySign_ofList infallible]
  split
  · rename_i present
    simp only [(mapM_placeOf_eq_ok_iff _ _ _).mpr ⟨present, rfl⟩, bind, Except.bind,
      mapM_signatureAt present]
  · rename_i missing
    rw [(failsIff_mapM_placeOf _ _).eq_error (by simpa using missing)]
    rfl

/-- Signers with different keys make the same of a message in any order, whether it is a transaction
or a fault. -/
theorem sign_eq_of_perm [Base58.Converter 32 44]
    (infallible : ∀ signer ∈ signers, signer.Infallible)
    (distinct : (signers.map Signer.pubkey).Nodup) (ordered : order.Perm signers)
    (message : Message) :
    sign message (Signers.ofList order) = sign message (Signers.ofList signers) := by
  have orderInfallible : ∀ signer ∈ order, signer.Infallible := fun signer member =>
    infallible signer (ordered.mem_iff.mp member)
  rw [sign_eq orderInfallible, sign_eq infallible, ordered.length_eq,
    Signers.signatureUnder_eq_of_perm distinct ordered]
  simp only [(ordered.map Signer.pubkey).mem_iff]

/-- Signers that never fail can sign a message exactly when it has the keys that it requires, there
are as many signers as that, it can be written, and each of the keys is that of a signer. -/
theorem exists_sign_iff [Base58.Converter 32 44]
    (infallible : ∀ signer ∈ signers, signer.Infallible) (message : Message) :
    (∃ transaction, sign message (Signers.ofList signers) = .ok transaction) ↔
      message.requiredSignatures ≤ message.staticAccountKeys.length ∧
      signers.length = message.requiredSignatures ∧
      (∃ data, message.toBytes = .ok data) ∧
      ∀ key ∈ message.staticAccountKeys.take message.requiredSignatures,
        ∃ signer ∈ signers, signer.pubkey = key := by
  simp only [sign_eq_ok_iff infallible, Message.requiredSigners?_eq_some_take_iff, List.mem_map]
  constructor
  · rintro ⟨_, _, data, ⟨enough, rfl⟩, counted, written, present, rfl⟩
    rw [List.length_take_of_le enough] at counted
    exact ⟨enough, counted, ⟨data, written⟩, present⟩
  · rintro ⟨enough, counted, ⟨data, written⟩, present⟩
    rw [← List.length_take_of_le enough] at counted
    exact ⟨_, _, data, ⟨enough, rfl⟩, counted, written, present, rfl⟩

/-- The slots of what signers that never fail have signed are filled by the first with each key. -/
theorem filledBy_of_sign [Base58.Converter 32 44]
    (infallible : ∀ signer ∈ signers, signer.Infallible) {message : Message}
    {transaction : Transaction}
    (signed : sign message (Signers.ofList signers) = .ok transaction) :
    FilledBy signers message transaction := by
  obtain ⟨keys, data, required, _, written, present, rfl⟩ :=
    (sign_eq_ok_iff infallible _ _).mp signed
  obtain ⟨enough, rfl⟩ := (message.requiredSigners?_eq_some_take_iff keys).mp required
  refine ⟨rfl, (List.length_map _).trans (List.length_take_of_le enough), data, written,
    fun slot inside => ?_⟩
  have carried : slot < message.staticAccountKeys.length := by omega
  have key_eq : (message.staticAccountKeys.take message.requiredSignatures)[slot]? =
      some message.staticAccountKeys[slot] := by
    rw [List.getElem?_take_of_lt inside, List.getElem?_eq_getElem carried]
  have held := present _ (List.mem_of_getElem? key_eq)
  obtain ⟨signer, found⟩ := Signers.exists_find?_of_mem held
  refine ⟨_, signer, List.getElem?_eq_getElem carried, found, ?_⟩
  rw [List.getElem?_map, key_eq, Option.map_some, Signers.signatureUnder_of_find? found]

/-- Signing is exact. Signers that never fail can sign a message exactly when it has the keys that
it requires, there are as many signers as that, it can be written, and each of the keys is that of a
signer. Then each slot is filled by the first signer with its key, and the message stays as it is.
Signers with different keys come to the same in any order, whether they succeed or fail. -/
theorem signing_exact [Base58.Converter 32 44] (signers : List Signer)
    (infallible : ∀ signer ∈ signers, signer.Infallible) (message : Message) :
    ((∃ transaction, sign message (Signers.ofList signers) = .ok transaction) ↔
      message.requiredSignatures ≤ message.staticAccountKeys.length ∧
      signers.length = message.requiredSignatures ∧
      (∃ data, message.toBytes = .ok data) ∧
      ∀ key ∈ message.staticAccountKeys.take message.requiredSignatures,
        ∃ signer ∈ signers, signer.pubkey = key) ∧
    (∀ transaction, sign message (Signers.ofList signers) = .ok transaction →
      FilledBy signers message transaction) ∧
    ((signers.map Signer.pubkey).Nodup → ∀ order : List Signer, order.Perm signers →
      sign message (Signers.ofList order) = sign message (Signers.ofList signers)) :=
  ⟨exists_sign_iff infallible message, fun _ => filledBy_of_sign infallible,
    fun distinct _ ordered => sign_eq_of_perm infallible distinct ordered message⟩

/-- The sample signers never fail. -/
theorem infallible_sampleSigners (numbers : List Nat) :
    ∀ signer ∈ numbers.map sampleSigner, signer.Infallible := by
  rw [List.forall_mem_map]
  exact fun _ _ => ⟨rfl, fun _ => rfl⟩

/-- A message with three slots, two of which are for the same key. -/
def sampleTwice : Message :=
  .legacy ⟨⟨3, 0, 1⟩, [.numbered 1, .numbered 2, .numbered 1, .numbered 9], Hash.zero,
    [⟨3, [1, 0], [7]⟩]⟩

/-- Three signers fill its slots in any order, though the key of one of them is not wanted, as two
of them have the keys that are. They fail when one of these keys is missing. -/
theorem signing_exact_sample :
    (∃ transaction,
      sign sampleTwice (Signers.ofList ([7, 2, 1].map sampleSigner)) = .ok transaction ∧
      FilledBy ([7, 2, 1].map sampleSigner) sampleTwice transaction ∧
      sign sampleTwice (Signers.ofList ([1, 7, 2].map sampleSigner)) = .ok transaction) ∧
    ¬∃ transaction,
      sign sampleTwice (Signers.ofList ([7, 3, 1].map sampleSigner)) = .ok transaction := by
  constructor
  · obtain ⟨succeeds, fills, reorders⟩ :=
      signing_exact _ (infallible_sampleSigners [7, 2, 1]) sampleTwice
    obtain ⟨transaction, signed⟩ := succeeds.mpr ⟨by decide, rfl, ⟨_, rfl⟩, by decide⟩
    have reordered := reorders (by decide) ([1, 7, 2].map sampleSigner)
      (List.Perm.map sampleSigner (by decide))
    exact ⟨transaction, signed, fills transaction signed, reordered.trans signed⟩
  · rw [(signing_exact _ (infallible_sampleSigners [7, 3, 1]) sampleTwice).1]
    rintro ⟨_, _, _, present⟩
    exact absurd present (by decide)

end Transaction

end Transact
