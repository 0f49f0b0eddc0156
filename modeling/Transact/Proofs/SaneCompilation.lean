import Transact.Proofs.Compilation
import Transact.Proofs.Sanity

/-!
# Which compiled messages pass their check

A compiled message has no key twice, carries its programs, refers to keys that it has, and makes no
empty selection. Of the conditions of its check only two can fail: no key may be left to pay, and
the key that stands first may be run. `Arranged.coherent_iff` says so for an arranged message, with
anything loaded.

The main statement, `Message.sanitize_of_compile`, carries this to both formats. A payer
that takes effect stands first, so its message fails only where the payer itself is run.
-/

namespace Transact

/-- Where items are related one by one and the relation carries one property over to the other, all
items of the one list have the first exactly when all of the other have the second. -/
theorem forall_mem_iff_of_forall₂ {α β : Type} {related : α → β → Prop} {first : α → Prop}
    {second : β → Prop} (carries : ∀ item other, related item other → (first item ↔ second other))
    {items : List α} {others : List β} (beside : List.Forall₂ related items others) :
    (∀ item ∈ items, first item) ↔ ∀ other ∈ others, second other := by
  induction beside with
  | nil => simp
  | cons here _ inductionHypothesis =>
    rw [List.forall_mem_cons, List.forall_mem_cons, carries _ _ here, inductionHypothesis]

namespace Mentions

variable {payer : Option Address} {instructions : List Instruction} {key : Address}

/-- Some key must sign and may be changed, all references to it taken together. The payer counts. -/
def HasWritableSigner (payer : Option Address) (instructions : List Instruction) : Prop :=
  ∃ key, isSigner payer instructions key = true ∧ isWritable payer instructions key = true

/-- A key of which something is asked is mentioned. -/
theorem isMentioned_of_isSigner (signs : isSigner payer instructions key = true) :
    IsMentioned payer instructions key := by
  rw [isSigner, Bool.or_eq_true, decide_eq_true_iff] at signs
  rcases signs with pays | asked
  · exact Or.inl pays
  · simp only [isAsked, List.any_eq_true, Bool.and_eq_true, beq_iff_eq] at asked
    obtain ⟨instruction, member, account, named, names, _⟩ := asked
    exact Or.inr ⟨instruction, member, Or.inr ⟨account, named, names⟩⟩

/-- A payer that takes effect is a writable signer. -/
theorem hasWritableSigner_of_pays (pays : Pays payer key) :
    HasWritableSigner payer instructions :=
  ⟨key, by simp [isSigner, pays], by simp [isWritable, pays]⟩

end Mentions

namespace AccountKeys

/-- Where no key has two places and the program is one of the first keys, the places of a compiled
instruction are within these and all keys exactly when the first key is not the program. -/
theorem within_iff_of_refers {static loaded : List Address} {instruction : Instruction}
    {compiled : CompiledInstruction} (unique : (static ++ loaded).Nodup)
    (carried : instruction.programId ∈ static)
    (refers : Refers (static ++ loaded) instruction compiled) :
    compiled.Within static.length (static ++ loaded).length ↔
      static.head? ≠ some instruction.programId := by
  obtain ⟨place, inside, holds⟩ := List.getElem_of_mem carried
  have found : (static ++ loaded)[place]? = some instruction.programId := by
    rw [List.getElem?_append_left inside, List.getElem?_eq_getElem inside, holds]
  have within : place < (static ++ loaded).length := (List.getElem?_eq_some_iff.mp found).1
  have programPlace : compiled.programIdIndex.toNat = place := by
    refine ((List.getElem?_inj within unique).mp ?_).symm
    rw [found, refers.program]
  have accounts : ∀ index ∈ compiled.accounts, index.toNat < (static ++ loaded).length := by
    have beside : List.Forall₂
        (fun index (_ : AccountMeta) => index.toNat < (static ++ loaded).length ∧ True)
        compiled.accounts instruction.accounts :=
      refers.accounts.flip.imp fun _ _ held => ⟨(List.getElem?_eq_some_iff.mp held).1, trivial⟩
    exact ((List.forall₂_and_left _ _).mp beside).1
  have first : static.head? = some instruction.programId ↔ place = 0 := by
    have inFront : static[0]? = (static ++ loaded)[0]? :=
      (List.getElem?_append_left (by omega)).symm
    rw [List.head?_eq_getElem?, inFront, ← found, eq_comm, List.getElem?_inj within unique]
  rw [ne_eq, first]
  constructor
  · intro places
    have positive := places.program_pos
    omega
  · intro later
    exact ⟨by omega, by omega, accounts⟩

/-- Where the programs are among the first keys, the places of all compiled instructions are within
these and all keys exactly when the first key is not run. -/
theorem forall_within_iff_of_refers {static loaded : List Address}
    {instructions : List Instruction} {compiled : List CompiledInstruction}
    (unique : (static ++ loaded).Nodup)
    (carried : ∀ instruction ∈ instructions, instruction.programId ∈ static)
    (refers : List.Forall₂ (Refers (static ++ loaded)) instructions compiled) :
    (∀ one ∈ compiled, one.Within static.length (static ++ loaded).length) ↔
      ∀ instruction ∈ instructions, static.head? ≠ some instruction.programId := by
  have beside := (List.forall₂_and_left _ _).mpr ⟨carried, refers⟩
  refine (forall_mem_iff_of_forall₂ ?_ beside).symm
  rintro instruction one ⟨programCarried, made⟩
  exact (within_iff_of_refers unique programCarried made).symm

end AccountKeys

namespace Arranged

variable {payer : Option Address} {instructions : List Instruction} {rest : KeyTable}
  {message : LegacyMessage} {loaded : LoadedAddresses}

/-- Programs are carried. -/
theorem program_mem (arranged : Arranged payer instructions rest message loaded) :
    ∀ instruction ∈ instructions, instruction.programId ∈ message.accountKeys := by
  intro instruction member
  refine (arranged.mem_accountKeys_iff _).mpr ⟨Or.inr ⟨instruction, member, Or.inl rfl⟩, ?_⟩
  intro taken
  have run : Mentions.isProgram instructions instruction.programId = true :=
    List.any_eq_true.mpr ⟨instruction, member, beq_self_eq_true _⟩
  have spared := (arranged.not_asked_of_loaded taken).2
  rw [run] at spared
  cases spared

/-- Some signer is not readonly exactly when some key is asked to sign and to be writable. -/
theorem readonlySigners_lt_iff (arranged : Arranged payer instructions rest message loaded) :
    message.header.readonlySigners < message.header.signers ↔
      Mentions.HasWritableSigner payer instructions := by
  have records := arranged.supplies.records
  have counted : message.header.readonlySigners < message.header.signers ↔
      0 < rest.writableSigners.length := by
    rw [arranged.laidOut.signers, arranged.laidOut.readonlySigners]
    omega
  rw [counted, List.length_pos_iff_exists_mem]
  refine exists_congr fun key => ?_
  rw [records.mem_writableSigners_iff]
  refine and_iff_right_of_imp ?_
  -- A signer is mentioned and cannot have been loaded, so it was left.
  rintro ⟨signs, _⟩
  have spared : key ∉ loaded.writable ++ loaded.readonly := by
    intro taken
    have silent := (arranged.not_asked_of_loaded taken).1
    have asked : Mentions.isSigner payer instructions key = true := signs
    rw [asked] at silent
    cases silent
  rw [← arranged.laidOut.mem_iff records, arranged.mem_accountKeys_iff]
  exact ⟨Mentions.isMentioned_of_isSigner signs, spared⟩

/-- The parts of an arranged message agree with each other exactly when some key is a writable
signer and the first key is not run. -/
theorem coherent_iff (arranged : Arranged payer instructions rest message loaded) :
    message.Coherent loaded.length ↔
      Mentions.HasWritableSigner payer instructions ∧
        ∀ instruction ∈ instructions,
          message.accountKeys.head? ≠ some instruction.programId := by
  have unique := arranged.nodup
  have refers := arranged.refers
  have bounded := arranged.bounded
  rw [List.append_assoc] at unique refers bounded
  have within := AccountKeys.forall_within_iff_of_refers unique arranged.program_mem refers
  have total : (message.accountKeys ++ (loaded.writable ++ loaded.readonly)).length =
      message.accountKeys.length + loaded.length := by
    rw [List.length_append, List.length_append, LoadedAddresses.length]
  rw [total] at within bounded
  rw [← within, ← arranged.readonlySigners_lt_iff]
  constructor
  · intro coherent
    exact ⟨coherent.payer_writable, coherent.within⟩
  · rintro ⟨writable, places⟩
    have described : message.header.signers + message.header.readonlyOthers
        ≤ message.accountKeys.length := by
      simp only [arranged.laidOut.signers, arranged.laidOut.readonlyOthers,
        arranged.laidOut.keys_eq, List.length_append]
      omega
    exact ⟨writable, described, (List.nodup_append.mp unique).1, bounded, places⟩

/-- A payer that takes effect stands first. -/
theorem head?_eq_of_pays (arranged : Arranged payer instructions rest message loaded)
    {key : Address} (pays : Mentions.Pays payer key) : message.accountKeys.head? = some key := by
  have payer_eq : rest.payer = some key :=
    arranged.supplies.payer_eq.trans ((Mentions.effectivePayer_eq_some_iff payer key).mpr pays)
  rw [arranged.laidOut.keys_eq, KeyTable.writableSigners, payer_eq]
  rfl

/-- With a payer that takes effect and is not run, the parts of an arranged message agree. -/
theorem coherent_of_pays (arranged : Arranged payer instructions rest message loaded)
    {key : Address} (pays : Mentions.Pays payer key)
    (spared : ∀ instruction ∈ instructions, instruction.programId ≠ key) :
    message.Coherent loaded.length := by
  refine arranged.coherent_iff.mpr ⟨Mentions.hasWritableSigner_of_pays pays, ?_⟩
  intro instruction member run
  rw [arranged.head?_eq_of_pays pays] at run
  exact spared instruction member (Option.some.inj run).symm

end Arranged

variable {payer : Option Address} {instructions : List Instruction} {recentBlockhash : Hash}

/-- The check of a compiled legacy message decides whether its parts agree. -/
theorem LegacyMessage.sanitize_eq_ok_iff_of_compile {message : LegacyMessage}
    (compiled : LegacyMessage.compile payer instructions recentBlockhash = .ok message) :
    ∃ rest, Arranged payer instructions rest message ⟨[], []⟩ ∧
      (message.sanitize = .ok () ↔ message.Coherent (LoadedAddresses.mk [] []).length) :=
  ⟨_, LegacyMessage.arranged_of_compile compiled, LegacyMessage.sanitize_eq_ok_iff message⟩

/-- The check of a compiled version 0 message decides whether its parts agree with what it loads,
since none of its selections is empty. -/
theorem V0Message.sanitize_eq_ok_iff_of_compile {tables : List LookupTable} {message : V0Message}
    (compiled : V0Message.compile payer instructions tables recentBlockhash = .ok message) :
    ∃ rest loaded, Arranged payer instructions rest message.toLegacyMessage loaded ∧
      (message.sanitize = .ok () ↔ message.toLegacyMessage.Coherent loaded.length) := by
  obtain ⟨selections, rest, lookups, resolved, arranged⟩ := V0Message.arranged_of_compile compiled
  refine ⟨rest, _, arranged, ?_⟩
  have counted : message.numLoaded = (LoadedAddresses.merge (selections.map Prod.snd)).length := by
    rw [V0Message.numLoaded, lookups]
    exact (LoadedAddresses.lengths_merge (TableLookup.counts_of_resolvesIn resolved)).2.2
  rw [V0Message.sanitize_eq_ok_iff, counted]
  refine and_iff_left ?_
  intro lookup member
  rw [lookups] at member
  obtain ⟨made, inSelections, rfl⟩ := List.mem_map.mp member
  obtain ⟨_, _, resolves⟩ := resolved made inSelections
  exact resolves.isEmpty_eq

/-- A compiled message of either format passes its check exactly when some key is a writable signer,
all references to it taken together, and the first of the carried keys is not run. So it passes
whenever its payer takes effect and is not run itself. -/
theorem Message.sanitize_of_compile (payer : Option Address) (instructions : List Instruction)
    (recentBlockhash : Hash) :
    (∀ message, LegacyMessage.compile payer instructions recentBlockhash = .ok message →
      (message.sanitize = .ok () ↔
        Mentions.HasWritableSigner payer instructions ∧
          ∀ instruction ∈ instructions,
            message.accountKeys.head? ≠ some instruction.programId)) ∧
    (∀ tables message,
      V0Message.compile payer instructions tables recentBlockhash = .ok message →
        (message.sanitize = .ok () ↔
          Mentions.HasWritableSigner payer instructions ∧
            ∀ instruction ∈ instructions,
              message.accountKeys.head? ≠ some instruction.programId)) ∧
    ∀ key, Mentions.Pays payer key →
      (∀ instruction ∈ instructions, instruction.programId ≠ key) →
        (∀ message, LegacyMessage.compile payer instructions recentBlockhash = .ok message →
          message.sanitize = .ok ()) ∧
        ∀ tables message,
          V0Message.compile payer instructions tables recentBlockhash = .ok message →
            message.sanitize = .ok () := by
  refine ⟨?_, ?_, ?_⟩
  · intro message compiled
    obtain ⟨_, arranged, passes⟩ := LegacyMessage.sanitize_eq_ok_iff_of_compile compiled
    exact passes.trans arranged.coherent_iff
  · intro tables message compiled
    obtain ⟨_, _, arranged, passes⟩ := V0Message.sanitize_eq_ok_iff_of_compile compiled
    exact passes.trans arranged.coherent_iff
  · intro key pays spared
    constructor
    · intro message compiled
      obtain ⟨_, arranged, passes⟩ := LegacyMessage.sanitize_eq_ok_iff_of_compile compiled
      exact passes.mpr (arranged.coherent_of_pays pays spared)
    · intro tables message compiled
      obtain ⟨_, _, arranged, passes⟩ := V0Message.sanitize_eq_ok_iff_of_compile compiled
      exact passes.mpr (arranged.coherent_of_pays pays spared)

/-- One instruction that runs a key. -/
def bareInstructions : List Instruction := [⟨.numbered 1, [], []⟩]

/-- Both messages of the sample pass, since their payer is not run. A message whose payer is run
fails, and so does one that nobody signs. -/
theorem Message.sanitize_of_compile_sample :
    (LegacyMessage.compile (some (.numbered 1)) sampleInstructions Hash.zero = .ok sampleLegacy ∧
      sampleLegacy.sanitize = .ok ()) ∧
    (V0Message.compile (some (.numbered 1)) sampleInstructions [sampleTable] Hash.zero =
        .ok sampleV0 ∧ sampleV0.sanitize = .ok ()) ∧
    ∀ payer ∈ [some (.numbered 1), none],
      ∃ message, LegacyMessage.compile payer bareInstructions Hash.zero = .ok message ∧
        message.sanitize ≠ .ok () := by
  obtain ⟨-, -, paid⟩ :=
    Message.sanitize_of_compile (some (.numbered 1)) sampleInstructions Hash.zero
  have pays : Mentions.Pays (some (.numbered 1)) (.numbered 1) := ⟨rfl, by decide⟩
  obtain ⟨legacy, v0⟩ := paid _ pays (by decide)
  refine ⟨⟨compile_sampleLegacy, legacy _ compile_sampleLegacy⟩,
    ⟨compile_sampleV0, v0 _ _ compile_sampleV0⟩, ?_⟩
  intro payer member
  obtain rfl | rfl : payer = some (.numbered 1) ∨ payer = none := by simpa using member
  · have compiled : LegacyMessage.compile (some (.numbered 1)) bareInstructions Hash.zero =
        .ok ⟨⟨1, 0, 0⟩, [.numbered 1], Hash.zero, [⟨0, [], []⟩]⟩ := by decide
    refine ⟨_, compiled, ?_⟩
    intro sane
    have spared := (((Message.sanitize_of_compile _ _ _).1 _ compiled).mp sane).2
    exact spared _ (List.mem_singleton_self _) rfl
  · have compiled : LegacyMessage.compile none bareInstructions Hash.zero =
        .ok ⟨⟨0, 0, 1⟩, [.numbered 1], Hash.zero, [⟨0, [], []⟩]⟩ := by decide
    refine ⟨_, compiled, ?_⟩
    intro sane
    obtain ⟨key, signs, _⟩ := (((Message.sanitize_of_compile _ _ _).1 _ compiled).mp sane).1
    have nobody : Mentions.isSigner none bareInstructions key = false := rfl
    rw [nobody] at signs
    cases signs

end Transact
