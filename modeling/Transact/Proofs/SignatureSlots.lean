import Mathlib.Data.List.Nodup
import Transact.Proofs.Outcomes
import Transact.Transaction.Signing

/-!
# The slots of signatures

A transaction has a slot for each key that must sign, in the order of the keys. The signers of a
message come in an order of their own, so a signer and its slot are brought together by the key.

The main statements say what signing and checking amount to once the steps are followed to their
end. Signers that never fail sign a message exactly when there is one for every key and none to
spare, and each slot then holds what the first signer with its key signs
(`Transaction.sign_eq_ok_iff`). A transaction is valid exactly when it has a signature for every key
and each of them is accepted under the key of its slot (`Transaction.verify_eq_ok_true_iff`).
-/

namespace Transact

/-- The signer never fails. -/
structure Signer.Infallible (signer : Signer) : Prop where
  /-- It has a key. -/
  tryPubkey_eq : signer.tryPubkey = .ok signer.pubkey
  /-- It signs anything. -/
  trySign_eq : ∀ data, signer.trySign data = .ok (signer.sign data)

/-- Key pairs never fail. -/
theorem Keypair.infallible_of_mem_map [SignatureScheme] (keypairs : List Keypair) :
    ∀ signer ∈ keypairs.map Keypair.signer, signer.Infallible := by
  rw [List.forall_mem_map]
  exact fun _ _ => ⟨rfl, fun _ => rfl⟩

/-- Exactly the messages with enough keys have signers, and these come first. -/
theorem Message.requiredSigners?_eq_some_iff (message : Message) (keys : List Address) :
    message.requiredSigners? = some keys ↔
      message.staticAccountKeys.take message.requiredSignatures = keys ∧
        keys.length = message.requiredSignatures := by
  unfold requiredSigners?
  dsimp only
  split
  · rename_i enough
    rw [Option.some.injEq]
    exact ⟨fun same => ⟨same, same ▸ enough⟩, And.left⟩
  · rename_i few
    simp only [reduceCtorEq, false_iff, not_and]
    rintro rfl enough
    exact few enough

/-- What the first of the signers with a key makes of some data, and the zero signature if none of
them has the key. -/
def Signers.signatureUnder (signers : List Signer) (data : Bytes) (key : Address) : Signature :=
  match signers.find? fun signer => signer.pubkey == key with
  | some signer => signer.sign data
  | none => Signature.zero

namespace Signers

variable {signers : List Signer}

/-- Signers that never fail have all of their keys. -/
theorem tryPubkeys_ofList (infallible : ∀ signer ∈ signers, signer.Infallible) :
    (ofList signers).tryPubkeys = .ok (signers.map Signer.pubkey) :=
  Outcome.mapM_eq_map fun signer member => (infallible signer member).tryPubkey_eq

/-- Signers that never fail sign anything. -/
theorem trySign_ofList (infallible : ∀ signer ∈ signers, signer.Infallible) (data : Bytes) :
    (ofList signers).trySign data = .ok (signers.map fun signer => signer.sign data) :=
  Outcome.mapM_eq_map fun signer member => (infallible signer member).trySign_eq data

/-- A key of some signer has a first signer. -/
theorem exists_find?_of_mem {key : Address} (present : key ∈ signers.map Signer.pubkey) :
    ∃ signer, signers.find? (fun signer => signer.pubkey == key) = some signer := by
  obtain ⟨holder, member, holds⟩ := List.mem_map.mp present
  rw [← Option.isSome_iff_exists, List.find?_isSome]
  exact ⟨holder, member, by simpa using holds⟩

/-- Where no two signers have the same key, the first signer with a key is the one that has it. -/
theorem find?_eq_some_iff (distinct : (signers.map Signer.pubkey).Nodup) (key : Address)
    (signer : Signer) :
    signers.find? (fun signer => signer.pubkey == key) = some signer ↔
      signer ∈ signers ∧ signer.pubkey = key := by
  constructor
  · intro found
    exact ⟨List.mem_of_find?_eq_some found, by simpa using List.find?_some found⟩
  · rintro ⟨member, rfl⟩
    obtain ⟨first, found⟩ := exists_find?_of_mem (List.mem_map_of_mem member)
    have sameKey : first.pubkey = signer.pubkey := by simpa using List.find?_some found
    rw [found, List.inj_on_of_nodup_map distinct (List.mem_of_find?_eq_some found) member sameKey]

/-- The signature under a key is made by the first signer with that key. -/
theorem signatureUnder_of_find? {key : Address} {signer : Signer}
    (found : signers.find? (fun signer => signer.pubkey == key) = some signer) (data : Bytes) :
    signatureUnder signers data key = signer.sign data := by
  rw [signatureUnder, found]

/-- The signature under a key is made by a signer with that key. -/
theorem exists_signatureUnder {key : Address} (present : key ∈ signers.map Signer.pubkey)
    (data : Bytes) :
    ∃ signer ∈ signers, signer.pubkey = key ∧
      signatureUnder signers data key = signer.sign data := by
  obtain ⟨signer, found⟩ := exists_find?_of_mem present
  exact ⟨signer, List.mem_of_find?_eq_some found, by simpa using List.find?_some found,
    signatureUnder_of_find? found data⟩

/-- At the first place of a key among the keys of the signers stands, among their signatures, the
one under the key. -/
theorem getElem?_idxOf_eq_signatureUnder {key : Address}
    (present : key ∈ signers.map Signer.pubkey) (data : Bytes) :
    (signers.map fun signer => signer.sign data)[(signers.map Signer.pubkey).idxOf key]? =
      some (signatureUnder signers data key) := by
  induction signers with
  | nil => simp at present
  | cons signer others inductionHypothesis =>
    by_cases holds : signer.pubkey = key
    · simp [signatureUnder, holds]
    · have later : key ∈ others.map Signer.pubkey := by
        simpa [Ne.symm holds] using present
      have unheld : (signer.pubkey == key) = false := by simpa using holds
      rw [List.map_cons, List.map_cons, List.idxOf_cons_ne _ holds, List.getElem?_cons_succ,
        inductionHypothesis later]
      simp only [signatureUnder, List.find?_cons, unheld]

end Signers

namespace Transaction

open Signers (signatureUnder)

/-- A key that is among others is found at its first place. -/
theorem placeOf_of_mem {keys : List Address} {key : Address} (present : key ∈ keys) :
    placeOf keys key = .ok (keys.idxOf key) := by
  obtain ⟨place, found⟩ := Option.isSome_iff_exists.mp (List.isSome_idxOf?.mpr present)
  rw [placeOf, List.idxOf_eq_getD_idxOf?, found]
  rfl

/-- A key that is not among others is a mismatch. -/
theorem placeOf_of_not_mem {keys : List Address} {key : Address} (absent : key ∉ keys) :
    placeOf keys key = .error .keypairPubkeyMismatch := by
  rw [placeOf, List.idxOf?_eq_none_iff.mpr absent]

/-- Looking up wanted keys is a mismatch exactly where one of them is missing. -/
theorem failsIff_mapM_placeOf (keys wanted : List Address) :
    Outcome.FailsIff (wanted.mapM (placeOf keys)) .keypairPubkeyMismatch
      (∃ key ∈ wanted, key ∉ keys) := by
  apply Outcome.FailsIff.mapM
  intro key _
  by_cases present : key ∈ keys
  · rw [placeOf_of_mem present]
    exact .of_ok _ (not_not_intro present)
  · rw [placeOf_of_not_mem present]
    exact .of_error present

/-- Keys are all found exactly when they are all among the others. -/
theorem mapM_placeOf_eq_ok_iff (keys wanted : List Address) (places : List Nat) :
    wanted.mapM (placeOf keys) = .ok places ↔
      (∀ key ∈ wanted, key ∈ keys) ∧ places = wanted.map keys.idxOf := by
  constructor
  · intro found
    have noneMissing := (failsIff_mapM_placeOf keys wanted).exists_ok_iff.mp ⟨places, found⟩
    have present : ∀ key ∈ wanted, key ∈ keys := by simpa using noneMissing
    rw [Outcome.mapM_eq_map fun key member => placeOf_of_mem (present key member)] at found
    cases found
    exact ⟨present, rfl⟩
  · rintro ⟨present, rfl⟩
    exact Outcome.mapM_eq_map fun key member => placeOf_of_mem (present key member)

/-- The keys to sign with are those that the message requires. -/
theorem keysToSign_eq_ok_iff (message : Message) (keys : List Address) :
    keysToSign message = .ok keys ↔ message.requiredSigners? = some keys := by
  unfold keysToSign
  split
  · rename_i required found
    simp only [found, Except.ok.injEq, Option.some.injEq]
  · rename_i missing
    simp only [missing, reduceCtorEq]

/-- The data to sign is what is written for the message. -/
theorem dataToSign_eq_ok_iff [Base58.Converter 32 44] (message : Message) (data : Bytes) :
    dataToSign message = .ok data ↔ message.toBytes = .ok data :=
  Outcome.mapError_eq_ok_iff _ _ _

/-- The signatures at the first places of keys are those under the keys. -/
theorem mapM_signatureAt {signers : List Signer} {keys : List Address}
    (present : ∀ key ∈ keys, key ∈ signers.map Signer.pubkey) (data : Bytes) :
    (keys.map (signers.map Signer.pubkey).idxOf).mapM
        (signatureAt (signers.map fun signer => signer.sign data)) =
      .ok (keys.map (signatureUnder signers data)) := by
  rw [Outcome.mapM_eq_ok_iff, List.forall₂_map_left_iff, List.forall₂_map_right_iff,
    List.forall₂_same]
  intro key member
  rw [signatureAt, Signers.getElem?_idxOf_eq_signatureUnder (present key member)]

/-- Signers that never fail sign a message exactly when it has as many keys as it requires, there
are as many signers, it can be written, and every key is that of a signer. A slot is filled by the
first signer with its key. -/
theorem sign_eq_ok_iff [Base58.Converter 32 44] {signers : List Signer}
    (infallible : ∀ signer ∈ signers, signer.Infallible) (message : Message)
    (transaction : Transaction) :
    sign message (Signers.ofList signers) = .ok transaction ↔
      ∃ keys data, message.requiredSigners? = some keys ∧ signers.length = keys.length ∧
        message.toBytes = .ok data ∧ (∀ key ∈ keys, key ∈ signers.map Signer.pubkey) ∧
        transaction = ⟨keys.map (signatureUnder signers data), message⟩ := by
  simp only [sign, Signers.tryPubkeys_ofList infallible, Signers.trySign_ofList infallible,
    Outcome.bind_eq_ok_iff, Outcome.refuse_eq_ok_iff, keysToSign_eq_ok_iff, dataToSign_eq_ok_iff,
    mapM_placeOf_eq_ok_iff, Except.ok.injEq, exists_eq_left', List.length_map]
  constructor
  · rintro ⟨keys, required, notMore, notFewer, data, written, _, ⟨present, rfl⟩, signatures, made,
      returned⟩
    rw [mapM_signatureAt present] at made
    cases made
    cases returned
    exact ⟨keys, data, required, by omega, written, present, rfl⟩
  · rintro ⟨keys, data, required, counted, written, present, rfl⟩
    exact ⟨keys, required, by omega, by omega, data, written, _, ⟨present, rfl⟩, _,
      mapM_signatureAt present data, rfl⟩

/-- Signers that never fail sign only a message that requires as many of them. -/
theorem length_eq_of_sign [Base58.Converter 32 44] {signers : List Signer}
    (infallible : ∀ signer ∈ signers, signer.Infallible) {message : Message}
    {transaction : Transaction}
    (signed : sign message (Signers.ofList signers) = .ok transaction) :
    signers.length = message.requiredSignatures := by
  obtain ⟨keys, _, required, counted, _⟩ := (sign_eq_ok_iff infallible _ _).mp signed
  exact counted.trans ((Message.requiredSigners?_eq_some_iff _ _).mp required).2

/-- The number of signatures passes exactly when it is the required one. -/
theorem checkSignatureCount_eq_ok_iff (transaction : Transaction) :
    transaction.checkSignatureCount = .ok () ↔
      transaction.signatures.length = transaction.message.requiredSignatures := by
  unfold checkSignatureCount
  dsimp only
  split
  · rename_i equal
    simp only [equal]
  · rename_i unequal
    simp only [reduceCtorEq, unequal]

section Checking

variable [SignatureScheme]

/-- Checking gives a result for each signature and key, in their order, exactly when there are as
many keys as the message requires, a signature for each, and the message can be written. -/
theorem verifyEach_eq_ok_iff (transaction : Transaction) (results : List Bool) :
    transaction.verifyEach = .ok results ↔
      ∃ keys data, transaction.message.requiredSigners? = some keys ∧
        transaction.message.toBytes = .ok data ∧ keys.length = transaction.signatures.length ∧
        results = (keys.zip transaction.signatures).map fun (key, signature) =>
          signature.verify key.toBytes data := by
  have inOrder : ∀ (keys : List Address) (data : Bytes),
      List.zipWith (fun signature key => signature.verify key.toBytes data)
        transaction.signatures keys = (keys.zip transaction.signatures).map
          fun (key, signature) => signature.verify key.toBytes data := by
    intro keys data
    rw [List.zipWith_comm, List.map_zip_eq_zipWith]
    rfl
  rw [verifyEach, Outcome.check_eq_ok_iff, checkSignatureCount_eq_ok_iff]
  cases required : transaction.message.requiredSigners? with
  | none => simp [throw, throwThe, MonadExceptOf.throw]
  | some keys =>
    have enough := ((Message.requiredSigners?_eq_some_iff _ _).mp required).2
    simp only [Outcome.bind_eq_ok_iff, messageData, Outcome.mapError_eq_ok_iff, inOrder]
    constructor
    · rintro ⟨counted, data, written, returned⟩
      cases returned
      exact ⟨keys, data, rfl, written, enough.trans counted.symm, rfl⟩
    · rintro ⟨_, data, ⟨⟩, written, counted, rfl⟩
      exact ⟨counted.symm.trans enough, data, written, rfl⟩

/-- A transaction is valid exactly when there are as many keys as the message requires, a signature
for each, the message can be written, and the scheme accepts each signature under the key of its
slot. -/
theorem verify_eq_ok_true_iff (transaction : Transaction) :
    transaction.verify = .ok true ↔
      ∃ keys data, transaction.message.requiredSigners? = some keys ∧
        transaction.message.toBytes = .ok data ∧
        List.Forall₂ (fun key signature =>
            SignatureScheme.Accepts key.toBytes data signature.bytes)
          keys transaction.signatures := by
  simp only [verify, Outcome.bind_eq_ok_iff, verifyEach_eq_ok_iff, List.forall₂_iff_zip,
    ← Signature.verify_eq_true_iff]
  constructor
  · rintro ⟨_, ⟨keys, data, required, written, counted, rfl⟩, valid⟩
    have accepted := Except.ok.inj valid
    simp only [List.all_map, List.all_eq_true, Function.comp_apply, id_eq, Prod.forall] at accepted
    exact ⟨keys, data, required, written, counted, fun {key signature} => accepted key signature⟩
  · rintro ⟨keys, data, required, written, counted, accepted⟩
    refine ⟨_, ⟨keys, data, required, written, counted, rfl⟩, congrArg Except.ok ?_⟩
    simp only [List.all_map, List.all_eq_true, Function.comp_apply, id_eq, Prod.forall]
    exact fun key signature => accepted

/-- A valid transaction has as many signatures as its message requires. -/
theorem length_signatures_of_verify {transaction : Transaction}
    (valid : transaction.verify = .ok true) :
    transaction.signatures.length = transaction.message.requiredSignatures := by
  obtain ⟨keys, _, required, _, accepted⟩ := (verify_eq_ok_true_iff _).mp valid
  exact accepted.length_eq.symm.trans ((Message.requiredSigners?_eq_some_iff _ _).mp required).2

end Checking

end Transaction

end Transact
