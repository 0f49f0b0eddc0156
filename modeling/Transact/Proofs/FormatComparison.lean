import Transact.Proofs.Selections

/-!
# The two formats compared

A version 0 message is compiled from the same table of keys as the legacy message of the same
instructions, out of which lookup tables first take some keys. What is left keeps its order
(`KeyTable.Supplies.select_eq_filter`), the signers are all left, and so the version 0 message is
the legacy one without the loaded keys. Its instructions have other places for the same keys.

The main statement, `V0Message.lightens_of_compile`, compares two compiled messages field by field.
-/

namespace Transact

namespace KeyTable.Supplies

variable {table rest : KeyTable} {use : Address → KeyUse} {writable readonly : List Address}

/-- Of the keys of a certain use those are left that were not taken, in their order. -/
theorem select_eq_filter (supplied : table.Supplies use writable readonly rest)
    (records : table.Records use) (wanted : KeyUse → Bool) :
    rest.select wanted =
      (table.select wanted).filter fun key => !(writable ++ readonly).contains key := by
  rw [supplied.records.select_eq, records.select_eq, supplied.keys_eq, supplied.payer_eq,
    List.filter_filter, List.filter_filter]
  exact List.filter_congr fun key _ => Bool.and_comm _ _

/-- No signer is taken. -/
theorem filter_signers (supplied : table.Supplies use writable readonly rest) {keys : List Address}
    (sign : ∀ key ∈ keys, (use key).isSigner = true) :
    (keys.filter fun key => !(writable ++ readonly).contains key) = keys := by
  rw [List.filter_eq_self]
  intro key member
  have kept : key ∉ writable ++ readonly := by
    intro taken
    have loadable := supplied.isLoadable taken
    simp [KeyUse.isLoadable, sign key member] at loadable
  simpa using kept

/-- The groups of signers stay as they are. -/
theorem signers_eq (supplied : table.Supplies use writable readonly rest)
    (records : table.Records use) :
    rest.writableSigners = table.writableSigners ∧
      rest.readonlySigners = table.readonlySigners := by
  have kept : ∀ wanted : KeyUse → Bool, (∀ use, wanted use = true → use.isSigner = true) →
      rest.select wanted = table.select wanted := by
    intro wanted signs
    rw [supplied.select_eq_filter records]
    exact supplied.filter_signers fun key member =>
      signs _ ((records.mem_select_iff wanted key).mp member).2.2
  refine ⟨?_, kept _ (by simp +contextual)⟩
  rw [writableSigners, writableSigners, supplied.payer_eq, kept _ (by simp +contextual)]

/-- The readonly keys that do not sign are those left and those taken as readonly. -/
theorem readonlyOthers_perm (supplied : table.Supplies use writable readonly rest)
    (records : table.Records use) :
    table.readonlyOthers.Perm (rest.readonlyOthers ++ readonly) := by
  have apart : List.Disjoint rest.readonlyOthers readonly := by
    intro key left taken
    have kept := ((supplied.records.mem_readonlyOthers_iff key).mp left).1
    rw [supplied.keys_eq, List.mem_filter] at kept
    simp [taken] at kept
  have unique : table.readonlyOthers.Nodup := records.nodup_select _
  have restUnique : (rest.readonlyOthers ++ readonly).Nodup :=
    (supplied.records.nodup_select _).append
      (supplied.nodup.sublist (List.sublist_append_right _ _)) apart
  refine (List.perm_ext_iff_of_nodup unique restUnique).mpr fun key => ?_
  rw [List.mem_append, supplied.records.mem_readonlyOthers_iff, records.mem_readonlyOthers_iff,
    supplied.keys_eq, List.mem_filter]
  constructor
  · rintro ⟨held, silent, unwritten⟩
    by_cases taken : key ∈ writable ++ readonly
    · refine Or.inr ((List.mem_append.mp taken).resolve_left fun asWritable => ?_)
      rw [(supplied.writable_mem key asWritable).2.2] at unwritten
      cases unwritten
    · exact Or.inl ⟨⟨held, by simpa using taken⟩, silent, unwritten⟩
  · rintro (⟨⟨held, _⟩, uses⟩ | taken)
    · exact ⟨held, uses⟩
    · obtain ⟨held, loadable, unwritten⟩ := supplied.readonly_mem key taken
      rw [KeyUse.isLoadable, Bool.and_eq_true, Bool.not_eq_true'] at loadable
      exact ⟨held, loadable.1, unwritten⟩

/-- The keys that are left are laid out as the keys of the table are, without those taken. -/
theorem laidOut_eq_filter (supplied : table.Supplies use writable readonly rest)
    (records : table.Records use) {header other : MessageHeader} {keys others : List Address}
    (laid : table.LaidOut header keys) (restLaid : rest.LaidOut other others) :
    others = keys.filter fun key => !(writable ++ readonly).contains key := by
  obtain ⟨writableSigners, readonlySigners⟩ := supplied.signers_eq records
  rw [restLaid.keys_eq, laid.keys_eq, writableSigners, readonlySigners]
  simp only [List.filter_append]
  rw [supplied.filter_signers fun key member =>
      ((records.mem_writableSigners_iff key).mp member).2.1,
    supplied.filter_signers fun key member =>
      ((records.mem_readonlySigners_iff key).mp member).2.1]
  simp only [writableOthers, readonlyOthers, supplied.select_eq_filter records]

end KeyTable.Supplies

/-- Two compiled instructions agree when their data are the same and their places, each in a
sequence of keys of its own, hold the same keys. -/
structure CompiledInstruction.Agrees (keys others : List Address) (one other : CompiledInstruction) :
    Prop where
  /-- The data are the same. -/
  data_eq : one.data = other.data
  /-- The places of the programs hold the same key. -/
  program : ∃ key, keys[one.programIdIndex.toNat]? = some key ∧
    others[other.programIdIndex.toNat]? = some key
  /-- The places of the accounts hold the same keys, one by one. -/
  accounts : List.Forall₂ (fun index otherIndex => ∃ key, keys[index.toNat]? = some key ∧
    others[otherIndex.toNat]? = some key) one.accounts other.accounts

/-- Items that stand beside the same items stand beside each other. -/
theorem forall₂_of_shared {α β γ : Type} {first : α → β → Prop} {second : α → γ → Prop}
    {items : List α} {ones : List β} {others : List γ} (beside : List.Forall₂ first items ones)
    (besideOthers : List.Forall₂ second items others) :
    List.Forall₂ (fun one other => ∃ item, first item one ∧ second item other) ones others := by
  induction beside generalizing others with
  | nil =>
    cases besideOthers
    exact .nil
  | cons here _ inductionHypothesis =>
    cases besideOthers with
    | cons there rest => exact .cons ⟨_, here, there⟩ (inductionHypothesis rest)

/-- Compiled instructions that refer to the keys of the same instruction agree. -/
theorem CompiledInstruction.agrees_of_refers {keys others : List Address}
    {instruction : Instruction} {one other : CompiledInstruction}
    (refers : AccountKeys.Refers keys instruction one)
    (refersOther : AccountKeys.Refers others instruction other) :
    one.Agrees keys others other where
  data_eq := refers.data_eq.trans refersOther.data_eq.symm
  program := ⟨instruction.programId, refers.program, refersOther.program⟩
  accounts := (forall₂_of_shared refers.accounts refersOther.accounts).imp
    fun _ _ ⟨account, holds, otherHolds⟩ => ⟨account.address, holds, otherHolds⟩

/-- How many keys the lookups load as readonly. -/
def V0Message.numLoadedReadonly (message : V0Message) : Nat :=
  message.addressTableLookups.foldr (fun lookup total => lookup.readonlyIndexes.length + total) 0

/-- A message loads as many readonly keys as its lookups have readonly places. -/
theorem V0Message.numLoadedReadonly_eq {message : V0Message} {tables : List LookupTable}
    {selections : List (TableLookup × LoadedAddresses)}
    (lookups : message.addressTableLookups = selections.map Prod.fst)
    (resolved : ∀ made ∈ selections, ∃ source ∈ tables, KeyTable.ResolvesIn source made) :
    message.numLoadedReadonly =
      (LoadedAddresses.merge (selections.map Prod.snd)).readonly.length := by
  rw [numLoadedReadonly, lookups]
  exact (LoadedAddresses.lengths_merge (TableLookup.counts_of_resolvesIn resolved)).2.1

/-- A version 0 message lightens a legacy message when it says the same with some of the keys loaded
in place of carried. -/
structure V0Message.Lightens (message : V0Message) (legacy : LegacyMessage)
    (loaded : LoadedAddresses) : Prop where
  /-- It carries the other keys in the same order. -/
  accountKeys_eq : message.accountKeys =
    legacy.accountKeys.filter fun key => !(loaded.writable ++ loaded.readonly).contains key
  /-- The loaded keys are all keys of the legacy message. -/
  loaded_mem : ∀ key ∈ loaded.writable ++ loaded.readonly, key ∈ legacy.accountKeys
  /-- As many keys sign. -/
  numRequiredSignatures_eq :
    message.header.numRequiredSignatures = legacy.header.numRequiredSignatures
  /-- As many of them are readonly. -/
  numReadonlySignedAccounts_eq :
    message.header.numReadonlySignedAccounts = legacy.header.numReadonlySignedAccounts
  /-- The same keys sign, in the same order. -/
  signerKeys_eq : message.signerKeys = legacy.signerKeys
  /-- The count of readonly keys that do not sign is less by those that are loaded. -/
  readonlyOthers_eq : legacy.header.readonlyOthers =
    message.header.readonlyOthers + message.numLoadedReadonly
  /-- The block is the same. -/
  recentBlockhash_eq : message.recentBlockhash = legacy.recentBlockhash
  /-- The instructions are the same, each with its places in the keys of its own message, to which
  the loaded keys belong. -/
  instructions_agree : List.Forall₂
    (CompiledInstruction.Agrees legacy.accountKeys
      (message.accountKeys ++ loaded.writable ++ loaded.readonly))
    legacy.instructions message.instructions

section Compile

variable {payer : Option Address} {instructions : List Instruction} {recentBlockhash : Hash}

/-- A message that is arranged with some keys loaded lightens one that is arranged with none. -/
theorem Arranged.lightens {rest : KeyTable} {message : V0Message} {legacy : LegacyMessage}
    {loaded : LoadedAddresses}
    (arranged : Arranged payer instructions rest message.toLegacyMessage loaded)
    (whole : Arranged payer instructions (KeyTable.ofInstructions payer instructions) legacy
      ⟨[], []⟩)
    (sameBlock : message.recentBlockhash = legacy.recentBlockhash)
    (counted : message.numLoadedReadonly = loaded.readonly.length) :
    message.Lightens legacy loaded := by
  have records := KeyTable.records_ofInstructions payer instructions
  obtain ⟨writableSigners, readonlySigners⟩ := arranged.supplies.signers_eq records
  have refers := whole.refers
  simp only [List.append_nil] at refers
  constructor
  case accountKeys_eq =>
    exact arranged.supplies.laidOut_eq_filter records whole.laidOut arranged.laidOut
  case loaded_mem =>
    intro key taken
    exact (whole.laidOut.mem_iff records key).mpr (arranged.supplies.mem_keys taken)
  case numRequiredSignatures_eq =>
    refine UInt8.toNat_inj.mp (arranged.laidOut.signers.trans ?_)
    rw [writableSigners, readonlySigners]
    exact whole.laidOut.signers.symm
  case numReadonlySignedAccounts_eq =>
    refine UInt8.toNat_inj.mp (arranged.laidOut.readonlySigners.trans ?_)
    rw [readonlySigners]
    exact whole.laidOut.readonlySigners.symm
  case signerKeys_eq =>
    rw [LegacyMessage.signerKeys, LegacyMessage.signerKeys, arranged.laidOut.take_signers,
      whole.laidOut.take_signers, writableSigners, readonlySigners]
  case readonlyOthers_eq =>
    rw [counted, whole.laidOut.readonlyOthers, arranged.laidOut.readonlyOthers,
      (arranged.supplies.readonlyOthers_perm records).length_eq, List.length_append]
  case recentBlockhash_eq => exact sameBlock
  case instructions_agree =>
    exact (forall₂_of_shared refers arranged.refers).imp fun _ _ ⟨_, refersWhole, refersOther⟩ =>
      CompiledInstruction.agrees_of_refers refersWhole refersOther

/-- Without lookup tables the version 0 message is the legacy one. -/
theorem V0Message.compile_nil {legacy : LegacyMessage}
    (compiled : LegacyMessage.compile payer instructions recentBlockhash = .ok legacy) :
    V0Message.compile payer instructions [] recentBlockhash = .ok ⟨legacy, []⟩ := by
  obtain ⟨something, laidOut, placed, sameBlock⟩ :=
    (LegacyMessage.compile_eq_ok_iff legacy).mp compiled
  refine (V0Message.compile_eq_ok_iff [] ⟨legacy, []⟩).mpr
    ⟨something, [], KeyTable.ofInstructions payer instructions, rfl, laidOut, ?_, sameBlock, rfl⟩
  rw [← placed]
  simp [AccountKeys.compile, LoadedAddresses.merge]

end Compile

/-- Lookup tables only take keys out of the legacy message. What a version 0 message loads through
its lookups is missing from its own keys, which are otherwise those of the legacy message of the
same instructions in the same order; the header differs in one count, by what is loaded as readonly;
and instructions refer to the same keys. Without lookup tables the two messages are the same. -/
theorem V0Message.lightens_of_compile (payer : Option Address) (instructions : List Instruction)
    (tables : List LookupTable) (recentBlockhash : Hash) (legacy : LegacyMessage)
    (message : V0Message)
    (legacyCompiled : LegacyMessage.compile payer instructions recentBlockhash = .ok legacy)
    (compiled : V0Message.compile payer instructions tables recentBlockhash = .ok message) :
    (∃ numbers loaded,
      TableLookup.MadeFrom tables numbers message.addressTableLookups loaded ∧
      ((tables.map LookupTable.key).Nodup → message.loadAddresses tables = .ok loaded) ∧
      message.Lightens legacy loaded) ∧
    (tables = [] → message.addressTableLookups = [] ∧ message.toLegacyMessage = legacy) := by
  obtain ⟨selections, rest, succeeded, lookups, arranged⟩ := V0Message.extracted_of_compile compiled
  have records := KeyTable.records_ofInstructions payer instructions
  obtain ⟨numbers, extracted⟩ := KeyTable.extracted_of_extractAll records succeeded
  have made := extracted.madeFrom
  rw [← lookups] at made
  have counted := V0Message.numLoadedReadonly_eq lookups
    (KeyTable.supplies_of_extractAll records succeeded).2
  have sameBlock : message.recentBlockhash = legacy.recentBlockhash := by
    obtain ⟨_, _, _, block⟩ := (LegacyMessage.compile_eq_ok_iff legacy).mp legacyCompiled
    obtain ⟨_, _, _, _, _, _, otherBlock, _⟩ :=
      (V0Message.compile_eq_ok_iff tables message).mp compiled
    exact otherBlock.trans block.symm
  refine ⟨⟨numbers, _, made, made.loadAll_eq, arranged.lightens
    (LegacyMessage.arranged_of_compile legacyCompiled) sameBlock counted⟩, ?_⟩
  rintro rfl
  obtain rfl := Except.ok.inj (compiled.symm.trans (V0Message.compile_nil legacyCompiled))
  exact ⟨rfl, rfl⟩

/-- Of the five keys of the legacy message, the version 0 message loads a writable one and a
readonly one, each from a table of its own. -/
theorem V0Message.lightens_of_compile_sample :
    LegacyMessage.compile (some (.numbered 1)) sampleInstructions Hash.zero = .ok sampleLegacy ∧
    V0Message.compile (some (.numbered 1)) sampleInstructions sampleOverlapping Hash.zero =
      .ok sampleOverlappingV0 ∧
    ∃ numbers loaded,
      TableLookup.MadeFrom sampleOverlapping numbers sampleOverlappingV0.addressTableLookups loaded ∧
      sampleOverlappingV0.Lightens sampleLegacy loaded := by
  obtain ⟨⟨numbers, loaded, made, _, lightens⟩, _⟩ := V0Message.lightens_of_compile
    (some (.numbered 1)) sampleInstructions sampleOverlapping Hash.zero sampleLegacy
    sampleOverlappingV0 compile_sampleLegacy compile_sampleOverlapping
  exact ⟨compile_sampleLegacy, compile_sampleOverlapping, numbers, loaded, made, lightens⟩

end Transact
