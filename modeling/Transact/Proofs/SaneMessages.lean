import Transact.Proofs.LoadedKeys
import Transact.Proofs.Sanity

/-!
# What a checked message can be used for

The check of a message never sees a table. It counts the places of the lookups instead, and compares
the places in the instructions with that count. Resolving a lookup gives one key for each of its
places (`V0Message.numLoaded_eq`), so the count is right whatever the tables hold, and every
place that was accepted has its key.

The main statement, `Message.sound_of_sanitize`, is that a checked message never fails later for a
reason that its check should have found. Its instructions can be read back unless a table lacks what
a lookup asks for (`TableLookup.Unresolved`), and whoever pays, signs and is run can be told
(`Message.Usable`).
-/

namespace Transact

namespace TableLookup

/-- What keeps a selection from being resolved against some tables. -/
inductive Unresolved (tables : List LookupTable) (lookup : TableLookup) : MessageError → Prop where
  /-- No table has the key that it names. -/
  | notProvided (absent : ∀ table ∈ tables, table.key ≠ lookup.tableKey) :
    Unresolved tables lookup (.lookupTableNotProvided lookup.tableKey)
  /-- The first table with that key ends before one of its places. -/
  | notInTable {table : LookupTable} {index : UInt8}
    (found : tables.find? (fun table => table.key == lookup.tableKey) = some table)
    (selected : index ∈ lookup.writableIndexes ++ lookup.readonlyIndexes)
    (outside : table.addresses.length ≤ index.toNat) :
    Unresolved tables lookup (.addressNotInLookupTable lookup.tableKey index)

variable {tables : List LookupTable} {lookup : TableLookup} {lookups : List TableLookup}
  {fault : MessageError}

/-- What is wrong with a lookup keeps it from being resolved. -/
theorem unresolved_of_fault? (wrong : fault? tables lookup = some fault) :
    lookup.Unresolved tables fault := by
  unfold fault? at wrong
  split at wrong
  · rename_i absent
    cases wrong
    exact .notProvided ((find?_table_eq_none_iff _ _).mp absent)
  · rename_i table found
    obtain ⟨index, first, rfl⟩ := Option.map_eq_some_iff.mp wrong
    exact .notInTable found (List.mem_of_find?_eq_some first) (by simpa using List.find?_some first)

/-- Resolving selections fails only where one of them cannot be resolved. -/
theorem exists_unresolved_of_loadAll (failed : loadAll tables lookups = .error fault) :
    ∃ lookup ∈ lookups, lookup.Unresolved tables fault := by
  rw [loadAll_eq_error_iff] at failed
  obtain ⟨lookup, member, wrong⟩ := List.exists_of_findSome?_eq_some failed
  exact ⟨lookup, member, unresolved_of_fault? wrong⟩

end TableLookup

namespace CompiledInstruction

variable {keys : AccountKeys} (isSigner isWritable : Nat → Bool)

/-- A place among the keys has an account. -/
theorem exists_account {index : UInt8} (inside : index.toNat < keys.toList.length) :
    ∃ reported, account keys isSigner isWritable index = .ok reported := by
  simp only [account, AccountKeys.get?_eq, List.getElem?_eq_getElem inside]
  exact ⟨_, rfl⟩

/-- An instruction whose places refer to keys can be read back. -/
theorem exists_decompile {instruction : CompiledInstruction} {programs : Nat}
    (within : instruction.Within programs keys.toList.length)
    (carried : programs ≤ keys.toList.length) :
    ∃ original, instruction.decompile keys isSigner isWritable = .ok original := by
  have program := List.getElem?_eq_getElem (Nat.lt_of_lt_of_le within.program_lt carried)
  obtain ⟨accounts, reported⟩ := (Outcome.exists_mapM_eq_ok_iff
    (account keys isSigner isWritable) instruction.accounts).mpr fun index member =>
      exists_account isSigner isWritable (within.accounts_lt index member)
  simp only [decompile, AccountKeys.get?_eq, program, reported]
  exact ⟨_, rfl⟩

end CompiledInstruction

/-- All instructions of a coherent message can be read back among as many keys as it counts. -/
theorem LegacyMessage.Coherent.exists_decompile {message : LegacyMessage} {loaded : Nat}
    (coherent : message.Coherent loaded) {keys : AccountKeys}
    (counted : keys.toList.length = message.accountKeys.length + loaded)
    (isSigner isWritable : Nat → Bool) :
    ∃ instructions, message.instructions.mapM
      (CompiledInstruction.decompile keys isSigner isWritable) = .ok instructions := by
  rw [Outcome.exists_mapM_eq_ok_iff]
  intro instruction member
  have within := coherent.within instruction member
  rw [← counted] at within
  apply CompiledInstruction.exists_decompile isSigner isWritable within
  omega

/-- The instructions of a checked legacy message can be read back. -/
theorem LegacyMessage.exists_decompile_of_sanitize {message : LegacyMessage}
    (sane : message.sanitize = .ok ()) : ∃ instructions, message.decompile = .ok instructions := by
  have coherent := (LegacyMessage.sanitize_eq_ok_iff message).mp sane
  apply coherent.exists_decompile
  rw [AccountKeys.toList_none, Nat.add_zero]

/-- Reading back the instructions of a checked version 0 message fails exactly where resolving its
lookups does. -/
theorem V0Message.decompile_eq_error_iff {message : V0Message} (sane : message.sanitize = .ok ())
    (tables : List LookupTable) (fault : MessageError) :
    message.decompile tables = .error fault ↔ message.loadAddresses tables = .error fault := by
  have coherent := ((V0Message.sanitize_eq_ok_iff message).mp sane).1
  unfold decompile
  cases resolved : message.loadAddresses tables with
  | error cause =>
    change Except.error cause = _ ↔ _
    rw [Except.error.injEq, Except.error.injEq]
  | ok loaded =>
    have counted : (AccountKeys.toList ⟨message.accountKeys, some loaded⟩).length =
        message.accountKeys.length + message.numLoaded := by
      rw [AccountKeys.toList_some, List.append_assoc, List.length_append, List.length_append,
        numLoaded_eq resolved, LoadedAddresses.length]
    obtain ⟨instructions, decompiled⟩ := coherent.exists_decompile counted
      message.header.isSigner (isWritablePlace message.header message.accountKeys.length
        message.numLoadedWritable)
    change message.instructions.mapM _ = _ ↔ _
    rw [decompiled]
    simp only [reduceCtorEq]

namespace Message

variable {message : Message}

/-- The first key of a coherent message is nobody's program. -/
theorem isKeyCalledAsProgram_zero {loaded : Nat} (coherent : message.common.Coherent loaded) :
    message.common.isKeyCalledAsProgram 0 = false := by
  rw [LegacyMessage.isKeyCalledAsProgram, List.any_eq_false]
  intro instruction member called
  have positive := (coherent.within instruction member).program_pos
  have first := beq_iff_eq.mp called
  omega

/-- A checked message has a first signer, who pays. -/
theorem exists_feePayer_of_sanitize (sane : message.sanitize = .ok ()) :
    ∃ payer, message.feePayer? = some payer ∧ message.staticAccountKeys[0]? = some payer ∧
      0 < message.header.signers := by
  obtain ⟨loaded, coherent⟩ := exists_coherent_of_sanitize sane
  have signed : 0 < message.common.header.signers := by
    have writable := coherent.payer_writable
    omega
  have carried : 0 < message.common.accountKeys.length := by
    have described := coherent.described
    omega
  refine ⟨message.common.accountKeys[0], ?_, List.getElem?_eq_getElem carried, signed⟩
  rw [feePayer?, LegacyMessage.feePayer?, if_neg (by omega), List.head?_eq_getElem?,
    List.getElem?_eq_getElem carried]

/-- Whoever pays for a checked message may be written: the first signer is in the writable group,
and it is not run. -/
theorem isMaybeWritable_zero_of_sanitize (sane : message.sanitize = .ok ()) :
    message.isMaybeWritable 0 = true := by
  obtain ⟨loaded, coherent⟩ := exists_coherent_of_sanitize sane
  have spared := isKeyCalledAsProgram_zero coherent
  have writable := coherent.payer_writable
  have described := coherent.described
  cases message with
  | legacy message =>
    simp only [common] at spared writable
    simp only [isMaybeWritable, LegacyMessage.isMaybeWritable, spared,
      LegacyMessage.isWritableIndex, LegacyMessage.isWritablePlace, Bool.not_false, Bool.and_true,
      decide_eq_true_eq]
    omega
  | v0 message =>
    simp only [common] at spared writable described
    simp only [isMaybeWritable, V0Message.isMaybeWritable, spared, V0Message.isWritableIndex,
      V0Message.isWritablePlace, Bool.not_false, Bool.and_true]
    rw [if_neg (by omega), if_neg (by omega), decide_eq_true_eq]
    omega

/-- Everything that the other parts of a program rely on when they use a message. -/
structure Usable (message : Message) : Prop where
  /-- Somebody pays: the first key, which signs and may be written. -/
  payer : ∃ payer, message.feePayer? = some payer ∧ message.staticAccountKeys[0]? = some payer ∧
    message.isSigner 0 = true ∧ message.isMaybeWritable 0 = true
  /-- There are as many signers as the header tells. -/
  length_signerKeys : message.signerKeys.length = message.header.signers
  /-- No two signers are the same. -/
  nodup_signerKeys : message.signerKeys.Nodup
  /-- Whatever is run is a carried key, and it does not pay. -/
  programs : ∀ instruction ∈ message.instructions,
    ∃ program, instruction.programId? message.staticAccountKeys = some program ∧
      message.feePayer? ≠ some program

/-- A checked message can be used. -/
theorem usable_of_sanitize (sane : message.sanitize = .ok ()) : message.Usable := by
  obtain ⟨loaded, coherent⟩ := exists_coherent_of_sanitize sane
  obtain ⟨payer, pays, first, signed⟩ := exists_feePayer_of_sanitize sane
  constructor
  case payer =>
    exact ⟨payer, pays, first, decide_eq_true signed, isMaybeWritable_zero_of_sanitize sane⟩
  case length_signerKeys =>
    have described := coherent.described
    rw [signerKeys, LegacyMessage.signerKeys, List.length_take, header]
    omega
  case nodup_signerKeys =>
    exact coherent.nodup.sublist (List.take_sublist _ _)
  case programs =>
    intro instruction member
    have within := coherent.within instruction member
    refine ⟨_, List.getElem?_eq_getElem within.program_lt, ?_⟩
    -- No key stands at two places, and a program's place is not the first.
    intro same
    rw [pays, ← first, staticAccountKeys, ← List.getElem?_eq_getElem within.program_lt] at same
    have carried : 0 < message.common.accountKeys.length :=
      Nat.lt_of_le_of_lt (Nat.zero_le _) within.program_lt
    have place := (List.getElem?_inj carried coherent.nodup).mp same
    have positive := within.program_pos
    omega

/-- What passes its check can be used. The instructions of a legacy message can be read back. Those
of a version 0 message can, against any tables, unless a lookup cannot be resolved against them, and
then that is what is reported. In both formats the payer, the signers and the programs are as they
should be. -/
theorem sound_of_sanitize :
    (∀ message : LegacyMessage, message.sanitize = .ok () →
      ∃ instructions, message.decompile = .ok instructions) ∧
    (∀ message : V0Message, message.sanitize = .ok () → ∀ tables fault,
      (message.decompile tables = .error fault ↔ message.loadAddresses tables = .error fault) ∧
      (message.decompile tables = .error fault →
        ∃ lookup ∈ message.addressTableLookups, lookup.Unresolved tables fault)) ∧
    ∀ message : Message, message.sanitize = .ok () → message.Usable := by
  refine ⟨?_, ?_, ?_⟩
  · intro message sane
    exact LegacyMessage.exists_decompile_of_sanitize sane
  · intro message sane tables fault
    have sameFault := V0Message.decompile_eq_error_iff sane tables fault
    constructor
    · exact sameFault
    · intro failed
      exact TableLookup.exists_unresolved_of_loadAll (sameFault.mp failed)
  · intro message sane
    exact usable_of_sanitize sane

/-- The table of the sample without its last entry, which the message selects as writable. -/
def sampleShortTable : LookupTable := ⟨.numbered 5, [.numbered 4, .numbered 9]⟩

/-- Both messages of the sample pass their check. The legacy one can be read back, and so can the
one of version 0 against its table. Against no table, or one that is too short, it fails as the
resolution of its lookup does. -/
theorem sound_of_sanitize_sample :
    (sampleLegacy.sanitize = .ok () ∧ ∃ instructions, sampleLegacy.decompile = .ok instructions) ∧
    (sampleV0.sanitize = .ok () ∧ (∀ fault, sampleV0.decompile [sampleTable] ≠ .error fault) ∧
      sampleV0.decompile [] = .error (.lookupTableNotProvided (.numbered 5)) ∧
      sampleV0.decompile [sampleShortTable] =
        .error (.addressNotInLookupTable (.numbered 5) 2) ∧
      ∃ lookup ∈ sampleV0.addressTableLookups, lookup.Unresolved [sampleShortTable]
        (.addressNotInLookupTable (.numbered 5) 2)) ∧
    (Message.legacy sampleLegacy).Usable ∧ (Message.v0 sampleV0).Usable := by
  obtain ⟨legacy, v0, usable⟩ := sound_of_sanitize
  have legacySane : sampleLegacy.sanitize = .ok () := by decide
  have v0Sane : sampleV0.sanitize = .ok () := by decide
  have missing : sampleV0.decompile [] = .error (.lookupTableNotProvided (.numbered 5)) := by
    apply (v0 sampleV0 v0Sane [] _).1.mpr
    decide
  have short : sampleV0.decompile [sampleShortTable] =
      .error (.addressNotInLookupTable (.numbered 5) 2) := by
    apply (v0 sampleV0 v0Sane [sampleShortTable] _).1.mpr
    decide
  have whole : sampleV0.loadAddresses [sampleTable] = .ok ⟨[.numbered 2], [.numbered 4]⟩ := by
    decide
  refine ⟨⟨legacySane, legacy _ legacySane⟩, ⟨v0Sane, ?_, missing, short, ?_⟩,
    usable _ legacySane, usable _ v0Sane⟩
  · intro fault failed
    have unresolved := (v0 sampleV0 v0Sane [sampleTable] fault).1.mp failed
    rw [whole] at unresolved
    cases unresolved
  · exact (v0 sampleV0 v0Sane [sampleShortTable] _).2 short

end Message

end Transact
