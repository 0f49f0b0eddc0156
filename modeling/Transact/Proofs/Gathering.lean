import Transact.Proofs.SignatureSlots

/-!
# All ways of gathering signatures agree

Signatures can be gathered in calls, each by some of the signers. A call signs in place, and a call
with a signer that is not wanted fails. Whoever calls, in whatever order and however often, a slot
holds the zero signature until a call that succeeds has the signer of its key, and from then on what
that signer makes of the message (`Transaction.afterCalls_unsigned`).

The main statement, `Transaction.gatherings_agree`, says what each call of such a run does, and that
at its end, once every key is covered, stands the transaction that all signers make at once and that
is put together from signatures under their keys.
-/

namespace Transact

/-- The signer has a key, but none of the given ones. Whether it can sign does not matter. -/
structure Signer.IsForeign (signer : Signer) (keys : List Address) : Prop where
  /-- It has a key. -/
  tryPubkey_eq : signer.tryPubkey = .ok signer.pubkey
  /-- Its key is another one. -/
  pubkey_not_mem : signer.pubkey ∉ keys

/-- The message can be signed, and the crew consists of one signer for each of the keys that must
sign it, no two of which are the same. -/
structure Message.HasCrew (message : Message) (keys : List Address) (data : Bytes)
    (crew : List Signer) : Prop where
  /-- The keys are those that must sign. -/
  required : message.requiredSigners? = some keys
  /-- No key must sign twice. -/
  distinct : keys.Nodup
  /-- The data is what is written for the message. -/
  written : message.toBytes = .ok data
  /-- No signer ever fails. -/
  infallible : ∀ signer ∈ crew, signer.Infallible
  /-- The signers hold exactly the keys. -/
  holds : (crew.map Signer.pubkey).Perm keys

namespace Message.HasCrew

open Signers (signatureUnder)

variable {message : Message} {keys : List Address} {data : Bytes} {crew : List Signer}

/-- The order of the crew does not matter. -/
theorem of_perm (crewed : message.HasCrew keys data crew) {order : List Signer}
    (ordered : order.Perm crew) : message.HasCrew keys data order :=
  { crewed with
    infallible := fun signer member => crewed.infallible signer (ordered.mem_iff.mp member)
    holds := (ordered.map Signer.pubkey).trans crewed.holds }

/-- The key of a signer must sign. -/
theorem pubkey_mem (crewed : message.HasCrew keys data crew) {signer : Signer}
    (member : signer ∈ crew) : signer.pubkey ∈ keys :=
  crewed.holds.mem_iff.mp (List.mem_map_of_mem member)

/-- What holds for the key of every signer is what holds for every key that must sign. -/
theorem forall_mem_keys_iff (crewed : message.HasCrew keys data crew) (law : Address → Prop) :
    (∀ key ∈ keys, law key) ↔ ∀ signer ∈ crew, law signer.pubkey := by
  constructor
  · intro each signer member
    exact each signer.pubkey (crewed.pubkey_mem member)
  · intro each key wanted
    obtain ⟨signer, member, rfl⟩ := List.mem_map.mp (crewed.holds.mem_iff.mpr wanted)
    exact each signer member

/-- What is under the key of a signer is what it makes of the data, as no other signer has its key.
-/
theorem signatureUnder_pubkey (crewed : message.HasCrew keys data crew) {signer : Signer}
    (member : signer ∈ crew) : signatureUnder crew data signer.pubkey = signer.sign data := by
  have distinct : (crew.map Signer.pubkey).Nodup := crewed.holds.nodup_iff.mpr crewed.distinct
  exact Signers.signatureUnder_of_find?
    ((Signers.find?_eq_some_iff distinct _ _).mpr ⟨member, rfl⟩) data

end Message.HasCrew

namespace Transaction

open Signers (signatureUnder)

section InPlace

/-- Put a signature in a slot. -/
def writeSlot (place : Nat) (signature : Signature) : EStateM SignerError Transaction Unit :=
  modify fun transaction =>
    { transaction with signatures := transaction.signatures.set place signature }

/-- Sign with some of the required signers in place. The signatures are written one by one, and
where a step fails, what has been written by then stays. -/
def signInPlace [Base58.Converter 32 44] (signers : Signers) :
    EStateM SignerError Transaction Unit := do
  let transaction ← get
  let expected ← liftExcept (keysToSign transaction.message)
  if transaction.signatures.length ≠ expected.length then
    throw (.invalidInput "signature slots do not match required signers")
  let offered ← liftExcept signers.tryPubkeys
  let places ← liftExcept (offered.mapM (placeOf expected))
  let data ← liftExcept (dataToSign transaction.message)
  let made ← liftExcept (signers.trySign data)
  (places.zip made).forM fun (place, signature) => writeSlot place signature

/-- Run on a transaction, the program leaves the one of an outcome, and if the outcome is a fault,
the one it began with. -/
def Leaves (program : EStateM SignerError Transaction Unit) (transaction : Transaction)
    (outcome : Except SignerError Transaction) : Prop :=
  program.run transaction =
    match outcome with
    | .ok left => .ok () left
    | .error fault => .error fault transaction

variable {transaction : Transaction}

/-- A step that writes nothing may come before. -/
theorem Leaves.bind {α : Type} (step : Except SignerError α)
    {program : α → EStateM SignerError Transaction Unit}
    {outcome : α → Except SignerError Transaction}
    (continued : ∀ value, Leaves (program value) transaction (outcome value)) :
    Leaves (liftExcept step >>= program) transaction (step >>= outcome) := by
  cases step with
  | error fault => rfl
  | ok value => exact continued value

/-- A refusal may come before. -/
theorem Leaves.refuse {refused : Prop} [Decidable refused] {fault : SignerError}
    {program : Unit → EStateM SignerError Transaction Unit}
    {outcome : Unit → Except SignerError Transaction}
    (continued : Leaves (program ()) transaction (outcome ())) :
    Leaves (if refused then throw fault >>= program else program ()) transaction
      (if refused then throw fault >>= outcome else outcome ()) := by
  split
  · rfl
  · exact continued

/-- Writing signatures one after the other never fails. -/
theorem leaves_forM_writeSlot (transaction : Transaction) (pairs : List (Nat × Signature)) :
    Leaves (pairs.forM fun (place, signature) => writeSlot place signature) transaction
      (.ok { transaction with
        signatures := pairs.foldl (fun slots (place, signature) => slots.set place signature)
          transaction.signatures }) := by
  induction pairs generalizing transaction with
  | nil => rfl
  | cons pair others inductionHypothesis => exact inductionHypothesis _

/-- Signing in place leaves the signed transaction. All that can fail comes before the first write,
so a failure leaves the transaction as it was. -/
theorem leaves_signInPlace [Base58.Converter 32 44] (signers : Signers)
    (transaction : Transaction) :
    Leaves (signInPlace signers) transaction (partialSign transaction signers) := by
  refine Leaves.bind (keysToSign transaction.message) fun expected => ?_
  refine Leaves.refuse ?_
  refine Leaves.bind signers.tryPubkeys fun offered => ?_
  refine Leaves.bind (offered.mapM (placeOf expected)) fun places => ?_
  refine Leaves.bind (dataToSign transaction.message) fun data => ?_
  refine Leaves.bind (signers.trySign data) fun made => ?_
  exact leaves_forM_writeSlot transaction (places.zip made)

end InPlace

/-- The transaction that a call by a list of signers leaves behind, whether it succeeds or not. -/
def afterCall [Base58.Converter 32 44] (transaction : Transaction) (call : List Signer) :
    Transaction :=
  match (signInPlace (Signers.ofList call)).run transaction with
  | .ok _ left => left
  | .error _ left => left

/-- The transaction after some calls, one after the other. -/
def afterCalls [Base58.Converter 32 44] (transaction : Transaction)
    (calls : List (List Signer)) : Transaction :=
  calls.foldl afterCall transaction

/-- A call that succeeds leaves the signed transaction. -/
theorem afterCall_of_ok [Base58.Converter 32 44] {transaction signed : Transaction}
    {call : List Signer}
    (succeeded : partialSign transaction (Signers.ofList call) = .ok signed) :
    afterCall transaction call = signed := by
  have left := leaves_signInPlace (Signers.ofList call) transaction
  simp only [Leaves, succeeded] at left
  rw [afterCall, left]

/-- A call that fails leaves the transaction as it was. -/
theorem afterCall_of_error [Base58.Converter 32 44] {transaction : Transaction}
    {call : List Signer} {fault : SignerError}
    (failed : partialSign transaction (Signers.ofList call) = .error fault) :
    afterCall transaction call = transaction := by
  have left := leaves_signInPlace (Signers.ofList call) transaction
  simp only [Leaves, failed] at left
  rw [afterCall, left]

/-- The transaction with what is held for each key in the slot of the key. -/
def holding (message : Message) (keys : List Address) (held : Address → Signature) : Transaction :=
  ⟨keys.map held, message⟩

/-- What is held for each key once some signers have signed: what the last signer with the key
signs, and where none has it, what was held before. -/
def hold (data : Bytes) (held : Address → Signature) (call : List Signer) : Address → Signature :=
  call.foldl (fun held signer => Function.update held signer.pubkey (signer.sign data)) held

section Call

variable {message : Message} {keys : List Address} {data : Bytes} {held : Address → Signature}
  {call : List Signer}

/-- Writing into the first slots of keys is holding something else for the keys. -/
theorem foldl_set_eq_map_hold (distinct : keys.Nodup)
    (wanted : ∀ signer ∈ call, signer.pubkey ∈ keys) :
    (((call.map Signer.pubkey).map keys.idxOf).zip
      (call.map fun signer => signer.sign data)).foldl
        (fun slots (place, signature) => slots.set place signature) (keys.map held) =
      keys.map (hold data held call) := by
  induction call generalizing held with
  | nil => rfl
  | cons signer others inductionHypothesis =>
    obtain ⟨first, later⟩ := List.forall_mem_cons.mp wanted
    have written := distinct.map_update held signer.pubkey (signer.sign data)
    rw [if_pos first] at written
    simp only [List.map_cons, List.zip_cons_cons, List.foldl_cons, ← written]
    exact inductionHypothesis later

/-- A call by signers that are wanted and never fail puts what each signs in the slot of its key. -/
theorem partialSign_of_wanted [Base58.Converter 32 44]
    (required : message.requiredSigners? = some keys) (distinct : keys.Nodup)
    (written : message.toBytes = .ok data)
    (infallible : ∀ signer ∈ call, signer.Infallible)
    (wanted : ∀ signer ∈ call, signer.pubkey ∈ keys) :
    partialSign (holding message keys held) (Signers.ofList call) =
      .ok (holding message keys (hold data held call)) := by
  have placed : (call.map Signer.pubkey).mapM (placeOf keys) =
      .ok ((call.map Signer.pubkey).map keys.idxOf) :=
    (mapM_placeOf_eq_ok_iff _ _ _).mpr ⟨List.forall_mem_map.mpr wanted, rfl⟩
  simp only [partialSign, Outcome.bind_eq_ok_iff, Outcome.refuse_eq_ok_iff]
  refine ⟨keys, (keysToSign_eq_ok_iff _ _).mpr required, ?_, _,
    Signers.tryPubkeys_ofList infallible, _, placed, data, (dataToSign_eq_ok_iff _ _).mpr written,
    _, Signers.trySign_ofList infallible data, congrArg Except.ok ?_⟩
  · simp [holding]
  · rw [holding, holding, foldl_set_eq_map_hold distinct wanted]

/-- A call by signers of which one is not wanted is a mismatch. -/
theorem partialSign_of_foreign [Base58.Converter 32 44]
    (required : message.requiredSigners? = some keys)
    (offered : ∀ signer ∈ call, signer.tryPubkey = .ok signer.pubkey) {signer : Signer}
    (member : signer ∈ call) (foreign : signer.IsForeign keys) :
    partialSign (holding message keys held) (Signers.ofList call) =
      .error .keypairPubkeyMismatch := by
  have keysFound : keysToSign message = .ok keys := (keysToSign_eq_ok_iff _ _).mpr required
  have offeredKeys : (Signers.ofList call).tryPubkeys = .ok (call.map Signer.pubkey) :=
    Outcome.mapM_eq_map offered
  have missing := (failsIff_mapM_placeOf keys (call.map Signer.pubkey)).eq_error
    ⟨_, List.mem_map_of_mem member, foreign.pubkey_not_mem⟩
  simp [partialSign, holding, keysFound, offeredKeys, missing, bind, Except.bind]

end Call

/-- A call fills the slots of its signers, each with what the signer of its key makes of the data,
and leaves all others as they are. -/
structure Fills (keys : List Address) (data : Bytes) (call : List Signer)
    (before after : Transaction) : Prop where
  /-- The message stays. -/
  message_eq : after.message = before.message
  /-- No slot is added or lost. -/
  length_eq : after.signatures.length = before.signatures.length
  /-- A signer fills the slot of its key. -/
  own_eq : ∀ (slot : Nat), ∀ signer ∈ call, keys[slot]? = some signer.pubkey →
    after.signatures[slot]? = some (signer.sign data)
  /-- A slot of a key that no signer has stays. -/
  others_eq : ∀ (slot : Nat) (key : Address), keys[slot]? = some key →
    key ∉ call.map Signer.pubkey → after.signatures[slot]? = before.signatures[slot]?

section Crew

variable {message : Message} {keys : List Address} {data : Bytes} {crew : List Signer}
  {call : List Signer}

/-- The transaction in which the slots of some keys are filled by the crew. -/
def gathered (message : Message) (keys : List Address) (data : Bytes) (crew : List Signer)
    (covered : List Address) : Transaction :=
  holding message keys fun key =>
    if key ∈ covered then signatureUnder crew data key else Signature.zero

/-- The keys that a call covers: those of its signers, if all of them are wanted. -/
def coveredBy (keys : List Address) (call : List Signer) : List Address :=
  if ∀ signer ∈ call, signer.pubkey ∈ keys then call.map Signer.pubkey else []

/-- Once members of the crew have signed, what is held under their keys is what the crew signs under
them. -/
theorem hold_eq (crewed : message.HasCrew keys data crew) (members : ∀ signer ∈ call, signer ∈ crew)
    (held : Address → Signature) (key : Address) :
    hold data held call key =
      if key ∈ call.map Signer.pubkey then signatureUnder crew data key else held key := by
  induction call generalizing held with
  | nil => rfl
  | cons signer others inductionHypothesis =>
    obtain ⟨first, later⟩ := List.forall_mem_cons.mp members
    -- What the first signer writes stays, as a later signer with its key would be the same.
    have own := crewed.signatureUnder_pubkey first
    have continued := inductionHypothesis later
      (Function.update held signer.pubkey (signer.sign data))
    rw [hold, List.foldl_cons, ← hold, continued, List.map_cons]
    by_cases same : key = signer.pubkey
    · simp [same, own]
    · simp [same]

/-- Without any keys covered, nobody has signed. -/
theorem gathered_nil (required : message.requiredSigners? = some keys) :
    gathered message keys data crew [] = unsigned message := by
  have enough := ((Message.requiredSigners?_eq_some_iff _ _).mp required).2
  simp [gathered, holding, unsigned, ← enough]

/-- Members of the crew fill their own slots and no others. -/
theorem fills_gathered (crewed : message.HasCrew keys data crew)
    (members : ∀ signer ∈ call, signer ∈ crew) (covered : List Address) :
    Fills keys data call (gathered message keys data crew covered)
      (gathered message keys data crew (covered ++ call.map Signer.pubkey)) where
  message_eq := rfl
  length_eq := by simp [gathered, holding]
  own_eq := by
    intro slot signer member holds
    have own := crewed.signatureUnder_pubkey (members signer member)
    have covers : signer.pubkey ∈ covered ++ call.map Signer.pubkey :=
      List.mem_append_right _ (List.mem_map_of_mem member)
    simp only [gathered, holding, List.getElem?_map, holds, Option.map_some, if_pos covers, own]
  others_eq := by
    intro slot key holds absent
    simp only [gathered, holding, List.getElem?_map, holds, Option.map_some, List.mem_append,
      absent, or_false]

/-- Among members of the crew and foreign signers, the members are those whose key is wanted. -/
theorem forall_mem_crew_iff (crewed : message.HasCrew keys data crew)
    (known : ∀ signer ∈ call, signer ∈ crew ∨ signer.IsForeign keys) :
    (∀ signer ∈ call, signer ∈ crew) ↔ ∀ signer ∈ call, signer.pubkey ∈ keys := by
  refine forall₂_congr fun signer member => ⟨fun belongs => ?_, fun wanted => ?_⟩
  · exact crewed.pubkey_mem belongs
  · exact (known signer member).resolve_right fun foreign => foreign.pubkey_not_mem wanted

/-- Among them, there is a foreign signer exactly when some key is not wanted. -/
theorem exists_foreign_iff (crewed : message.HasCrew keys data crew)
    (known : ∀ signer ∈ call, signer ∈ crew ∨ signer.IsForeign keys) :
    (∃ signer ∈ call, signer.IsForeign keys) ↔ ¬∀ signer ∈ call, signer.pubkey ∈ keys := by
  constructor
  · rintro ⟨signer, member, foreign⟩ wanted
    exact foreign.pubkey_not_mem (wanted signer member)
  · intro unwanted
    by_contra domestic
    refine unwanted ((forall_mem_crew_iff crewed known).mp fun signer member => ?_)
    exact (known signer member).resolve_right fun foreign => domestic ⟨signer, member, foreign⟩

/-- A call covers the keys of its signers if all of them are wanted, and is a mismatch otherwise. -/
theorem partialSign_gathered [Base58.Converter 32 44] (crewed : message.HasCrew keys data crew)
    (known : ∀ signer ∈ call, signer ∈ crew ∨ signer.IsForeign keys) (covered : List Address) :
    partialSign (gathered message keys data crew covered) (Signers.ofList call) =
      if ∀ signer ∈ call, signer.pubkey ∈ keys then
        .ok (gathered message keys data crew (covered ++ call.map Signer.pubkey))
      else .error .keypairPubkeyMismatch := by
  split
  · rename_i wanted
    have members := (forall_mem_crew_iff crewed known).mpr wanted
    have infallible : ∀ signer ∈ call, signer.Infallible := fun signer member =>
      crewed.infallible signer (members signer member)
    have joined : ∀ key, hold data (fun key =>
          if key ∈ covered then signatureUnder crew data key else Signature.zero) call key =
        if key ∈ covered ++ call.map Signer.pubkey then signatureUnder crew data key
        else Signature.zero := by
      intro key
      rw [hold_eq crewed members]
      by_cases before : key ∈ covered
      · simp [before]
      · simp [before]
    rw [gathered, partialSign_of_wanted crewed.required crewed.distinct crewed.written infallible
      wanted, funext joined, gathered]
  · rename_i unwanted
    obtain ⟨signer, member, foreign⟩ := (exists_foreign_iff crewed known).mpr unwanted
    refine partialSign_of_foreign crewed.required (fun other caller => ?_) member foreign
    obtain belongs | otherForeign := known other caller
    · exact (crewed.infallible other belongs).tryPubkey_eq
    · exact otherForeign.tryPubkey_eq

/-- One call covers the keys of its signers, or none if a foreign signer is among them. -/
theorem afterCall_gathered [Base58.Converter 32 44] (crewed : message.HasCrew keys data crew)
    (known : ∀ signer ∈ call, signer ∈ crew ∨ signer.IsForeign keys) (covered : List Address) :
    afterCall (gathered message keys data crew covered) call =
      gathered message keys data crew (covered ++ coveredBy keys call) := by
  have outcome := partialSign_gathered crewed known covered
  rw [coveredBy]
  split
  · rename_i wanted
    rw [if_pos wanted] at outcome
    exact afterCall_of_ok outcome
  · rename_i unwanted
    rw [if_neg unwanted] at outcome
    rw [afterCall_of_error outcome, List.append_nil]

/-- Calls cover keys one after the other. The induction is on the calls, over whatever is covered
before the first. -/
theorem afterCalls_gathered [Base58.Converter 32 44] (crewed : message.HasCrew keys data crew)
    {calls : List (List Signer)}
    (known : ∀ call ∈ calls, ∀ signer ∈ call, signer ∈ crew ∨ signer.IsForeign keys)
    (covered : List Address) :
    afterCalls (gathered message keys data crew covered) calls =
      gathered message keys data crew (covered ++ calls.flatMap (coveredBy keys)) := by
  induction calls generalizing covered with
  | nil => rw [List.flatMap_nil, List.append_nil, afterCalls, List.foldl_nil]
  | cons call others inductionHypothesis =>
    obtain ⟨first, later⟩ := List.forall_mem_cons.mp known
    rw [afterCalls, List.foldl_cons, ← afterCalls, afterCall_gathered crewed first,
      inductionHypothesis later, List.flatMap_cons, List.append_assoc]

/-- After a run from the unsigned transaction, exactly the slots of the keys that its calls cover
are filled. -/
theorem afterCalls_unsigned [Base58.Converter 32 44] (crewed : message.HasCrew keys data crew)
    {calls : List (List Signer)}
    (known : ∀ call ∈ calls, ∀ signer ∈ call, signer ∈ crew ∨ signer.IsForeign keys) :
    afterCalls (unsigned message) calls =
      gathered message keys data crew (calls.flatMap (coveredBy keys)) := by
  rw [← gathered_nil crewed.required, afterCalls_gathered crewed known, List.nil_append]

/-- With every key covered, each slot holds what the crew signs under its key. -/
theorem gathered_of_covered {covered : List Address} (all : ∀ key ∈ keys, key ∈ covered) :
    gathered message keys data crew covered = holding message keys (signatureUnder crew data) := by
  have filled : ∀ key ∈ keys, (if key ∈ covered then signatureUnder crew data key
      else Signature.zero) = signatureUnder crew data key :=
    fun key member => if_pos (all key member)
  rw [gathered, holding, holding, List.map_congr_left filled]

/-- The crew signs the message all at once, in whatever order it comes. -/
theorem sign_eq_holding [Base58.Converter 32 44] (crewed : message.HasCrew keys data crew)
    {order : List Signer} (ordered : order.Perm crew) :
    sign message (Signers.ofList order) =
      .ok (holding message keys (signatureUnder crew data)) := by
  have orderedCrew := crewed.of_perm ordered
  have counted : order.length = keys.length := by simpa using orderedCrew.holds.length_eq
  have same : ∀ key ∈ keys, signatureUnder crew data key = signatureUnder order data key := by
    rw [crewed.forall_mem_keys_iff]
    intro signer member
    rw [crewed.signatureUnder_pubkey member,
      orderedCrew.signatureUnder_pubkey (ordered.mem_iff.mpr member)]
  rw [holding, List.map_congr_left same]
  exact (sign_eq_ok_iff orderedCrew.infallible _ _).mpr ⟨keys, data, crewed.required, counted,
    crewed.written, fun key => orderedCrew.holds.mem_iff.mpr, rfl⟩

/-- The signatures of the crew are put together from any table that has them under their keys. -/
theorem assemble_eq_holding (crewed : message.HasCrew keys data crew)
    {signatures : List (Address × Signature)}
    (listed : ∀ signer ∈ crew,
      signatures.reverse.lookup signer.pubkey = some (signer.sign data)) :
    assemble message signatures = .ok (holding message keys (signatureUnder crew data)) := by
  have found : ∀ key ∈ keys,
      signatures.reverse.lookup key = some (signatureUnder crew data key) := by
    rw [crewed.forall_mem_keys_iff]
    intro signer member
    rw [listed signer member, crewed.signatureUnder_pubkey member]
  rw [assemble, crewed.required]
  dsimp only
  rw [Outcome.mapM_eq_map]
  · rfl
  · intro key member
    rw [found key member]

/-- A key is covered by a run when a call of it that succeeds has a signer with the key. -/
def Covers [Base58.Converter 32 44] (start : Transaction) (calls : List (List Signer))
    (key : Address) : Prop :=
  ∃ before call after, calls = before ++ call :: after ∧
    (∃ signed, partialSign (afterCalls start before) (Signers.ofList call) = .ok signed) ∧
    key ∈ call.map Signer.pubkey

/-- No call with a foreign signer succeeds, so a key that a run covers is one of those that its
calls count as covered. -/
theorem mem_coveredBy_of_covers [Base58.Converter 32 44] (crewed : message.HasCrew keys data crew)
    {calls : List (List Signer)}
    (known : ∀ call ∈ calls, ∀ signer ∈ call, signer ∈ crew ∨ signer.IsForeign keys)
    {key : Address} (covers : Covers (unsigned message) calls key) :
    key ∈ calls.flatMap (coveredBy keys) := by
  obtain ⟨before, call, after, rfl, ⟨signed, succeeded⟩, member⟩ := covers
  have knownBefore : ∀ call ∈ before, ∀ signer ∈ call, signer ∈ crew ∨ signer.IsForeign keys :=
    fun other earlier => known other (List.mem_append_left _ earlier)
  have present : call ∈ before ++ call :: after :=
    List.mem_append_right _ List.mem_cons_self
  rw [afterCalls_unsigned crewed knownBefore, partialSign_gathered crewed (known call present)]
    at succeeded
  split at succeeded
  · rename_i wanted
    refine List.mem_flatMap.mpr ⟨call, present, ?_⟩
    rw [coveredBy, if_pos wanted]
    exact member
  · cases succeeded

end Crew

/-- Let a message have a crew, and let members of the crew and foreign signers call in whatever
groups and order, starting from the unsigned transaction. After any number of calls, one with a
foreign signer is a mismatch and leaves the transaction as it was, and any other fills the slots of
its signers and no others. And once every key is covered, there stands the transaction that the crew
signs at once in any order, and that is put together from any table with the crew's signatures under
their keys. -/
theorem gatherings_agree [Base58.Converter 32 44] (message : Message) (keys : List Address)
    (data : Bytes) (crew : List Signer) (crewed : message.HasCrew keys data crew)
    (calls : List (List Signer))
    (known : ∀ call ∈ calls, ∀ signer ∈ call, signer ∈ crew ∨ signer.IsForeign keys) :
    (∀ call : List Signer, (∀ signer ∈ call, signer ∈ crew ∨ signer.IsForeign keys) →
      let current := afterCalls (unsigned message) calls
      ((∃ signer ∈ call, signer.IsForeign keys) →
        partialSign current (Signers.ofList call) = .error .keypairPubkeyMismatch ∧
        afterCall current call = current) ∧
      ((¬∃ signer ∈ call, signer.IsForeign keys) →
        partialSign current (Signers.ofList call) = .ok (afterCall current call) ∧
        Fills keys data call current (afterCall current call))) ∧
    ((∀ key ∈ keys, Covers (unsigned message) calls key) →
      (∀ order : List Signer, order.Perm crew →
        sign message (Signers.ofList order) = .ok (afterCalls (unsigned message) calls)) ∧
      ∀ signatures : List (Address × Signature),
        (∀ signer ∈ crew, signatures.reverse.lookup signer.pubkey = some (signer.sign data)) →
          assemble message signatures = .ok (afterCalls (unsigned message) calls)) := by
  have state := afterCalls_unsigned crewed known
  constructor
  · intro call callKnown current
    have currently : current = gathered message keys data crew (calls.flatMap (coveredBy keys)) :=
      state
    have outcome := partialSign_gathered crewed callKnown (calls.flatMap (coveredBy keys))
    rw [exists_foreign_iff crewed callKnown, not_not, currently]
    constructor
    · intro unwanted
      rw [if_neg unwanted] at outcome
      exact ⟨outcome, afterCall_of_error outcome⟩
    · intro wanted
      rw [if_pos wanted] at outcome
      rw [afterCall_of_ok outcome]
      exact ⟨outcome, fills_gathered crewed ((forall_mem_crew_iff crewed callKnown).mpr wanted) _⟩
  · intro covers
    -- All three ways end in the transaction that holds what the crew signs under each key.
    have all : ∀ key ∈ keys, key ∈ calls.flatMap (coveredBy keys) := fun key member =>
      mem_coveredBy_of_covers crewed known (covers key member)
    rw [state, gathered_of_covered all]
    exact ⟨fun order ordered => sign_eq_holding crewed ordered,
      fun signatures listed => assemble_eq_holding crewed listed⟩

/-- A signer whose signature shows its key and how much it signs. -/
def sampleSigner (number : Nat) : Signer where
  tryPubkey := .ok (.numbered number)
  trySign data := .ok ⟨FixedList.replicate 64 (UInt8.ofNat (number + data.length))⟩

/-- A signer that is out of reach once its key is known. -/
def sampleStranger : Signer where
  tryPubkey := .ok (.numbered 7)
  trySign _ := .error (.custom "out of reach")

/-- A message that two keys must sign. -/
def sampleShared : LegacyMessage :=
  ⟨⟨2, 0, 1⟩, [.numbered 1, .numbered 2, .numbered 9], Hash.zero, [⟨2, [1, 0], [7]⟩]⟩

/-- The two signers are its crew. -/
theorem hasCrew_sampleShared : ∃ data, (Message.legacy sampleShared).HasCrew
    [.numbered 1, .numbered 2] data [sampleSigner 1, sampleSigner 2] := by
  refine ⟨_, rfl, by decide, rfl, ?_, .refl _⟩
  intro signer member
  obtain rfl | rfl : signer = sampleSigner 1 ∨ signer = sampleSigner 2 := by simpa using member
  · exact ⟨rfl, fun _ => rfl⟩
  · exact ⟨rfl, fun _ => rfl⟩

/-- One of them signs alone, the other fails with a stranger, and then both sign, one of them twice.
-/
def sampleCalls : List (List Signer) :=
  [[sampleSigner 2], [sampleSigner 1, sampleStranger],
    [sampleSigner 1, sampleSigner 2, sampleSigner 1]]

/-- The call with the stranger changes nothing, and after the calls the message is signed as it is
when both sign at once or their signatures are found in a table. -/
theorem gatherings_agree_sample : ∃ current transaction,
    afterCalls (unsigned (.legacy sampleShared)) (sampleCalls.take 1) = current ∧
    partialSign current (Signers.ofList [sampleSigner 1, sampleStranger]) =
      .error .keypairPubkeyMismatch ∧
    afterCall current [sampleSigner 1, sampleStranger] = current ∧
    afterCalls (unsigned (.legacy sampleShared)) sampleCalls = transaction ∧
    sign (.legacy sampleShared) (Signers.ofList [sampleSigner 2, sampleSigner 1]) =
      .ok transaction ∧
    ∃ data, sampleShared.toBytes = .ok data ∧
      assemble (.legacy sampleShared) [(.numbered 7, Signature.zero),
        (.numbered 1, Signature.zero), (.numbered 2, (sampleSigner 2).sign data),
        (.numbered 1, (sampleSigner 1).sign data)] = .ok transaction := by
  obtain ⟨data, crewed⟩ := hasCrew_sampleShared
  have stranger : sampleStranger.IsForeign [.numbered 1, .numbered 2] := ⟨rfl, by decide⟩
  have known : ∀ call ∈ sampleCalls, ∀ signer ∈ call,
      signer ∈ [sampleSigner 1, sampleSigner 2] ∨
        signer.IsForeign [.numbered 1, .numbered 2] := by
    simp [sampleCalls, stranger]
  have covers : ∀ key ∈ [Address.numbered 1, .numbered 2],
      Covers (unsigned (.legacy sampleShared)) sampleCalls key := by
    intro key member
    refine ⟨sampleCalls.take 2, _, [], rfl, ⟨_, rfl⟩, ?_⟩
    obtain rfl | rfl : key = .numbered 1 ∨ key = .numbered 2 := by simpa using member
    · exact List.mem_cons_self
    · exact List.mem_cons_of_mem _ List.mem_cons_self
  obtain ⟨failing, _⟩ := gatherings_agree _ _ _ _ crewed (sampleCalls.take 1)
    (fun call member => known call (List.mem_of_mem_take member))
  obtain ⟨failed, unchanged⟩ := (failing _ (known [sampleSigner 1, sampleStranger]
    (by simp [sampleCalls]))).1 ⟨sampleStranger, by simp, stranger⟩
  obtain ⟨signs, assembles⟩ := (gatherings_agree _ _ _ _ crewed sampleCalls known).2 covers
  refine ⟨_, _, rfl, failed, unchanged, rfl, signs _ (.swap _ _ _), data, crewed.written, ?_⟩
  refine assembles _ fun signer member => ?_
  obtain rfl | rfl : signer = sampleSigner 1 ∨ signer = sampleSigner 2 := by simpa using member
  · rfl
  · rfl

end Transaction

end Transact
