import Transact.Proofs.KeyRegisters
import Transact.Proofs.SaneCompilation

/-!
# No key is lost

However many lookup tables a register of keys has been through, its order and its map hold the same
keys, and each key that was collected is either still there, as it was, or was supplied by one of
the lookup tables, never both (`KeyRegister.kept_of_extractAll`). Those that must stay do: the
payer, all signers and all programs. A lookup table has nothing more to supply the second time.

All of this is known of the table of keys that the register mirrors: what lookup tables supply
leaves the rest in order (`KeyTable.Supplies`), and what is left on offer is held by none of them
(`KeyTable.Extracted`).
-/

namespace Transact

/-- The keys that lookup tables supplied, selection by selection. -/
def LoadedAddresses.taken (selections : List (TableLookup × LoadedAddresses)) : List Address :=
  selections.flatMap fun made => made.2.writable ++ made.2.readonly

/-- They are the keys of all selections joined, up to order. -/
theorem LoadedAddresses.taken_perm (selections : List (TableLookup × LoadedAddresses)) :
    (taken selections).Perm ((merge (selections.map Prod.snd)).writable ++
      (merge (selections.map Prod.snd)).readonly) := by
  have joined := List.flatMap_append_perm selections (fun made => made.2.writable)
    fun made => made.2.readonly
  simpa only [taken, merge, List.map_map, ← List.flatMap_def, Function.comp_def] using joined.symm

namespace KeyTable

variable {table rest : KeyTable} {use : Address → KeyUse} {writable readonly : List Address}

/-- The keys that were taken and those that are left are the keys of the table. -/
theorem Supplies.perm (supplied : table.Supplies use writable readonly rest)
    (records : table.Records use) :
    ((writable ++ readonly) ++ rest.keys).Perm table.keys := by
  have apart : ((writable ++ readonly) ++ rest.keys).Nodup := by
    apply supplied.nodup.append supplied.records.nodup
    intro key taken left
    rw [supplied.keys_eq, List.mem_filter] at left
    simp [taken] at left
  rw [List.perm_ext_iff_of_nodup apart records.nodup]
  intro key
  rw [List.mem_append, supplied.keys_eq, List.mem_filter]
  constructor
  · rintro (taken | ⟨member, _⟩)
    · exact supplied.mem_keys taken
    · exact member
  · intro member
    by_cases taken : key ∈ writable ++ readonly
    · exact Or.inl taken
    · exact Or.inr ⟨member, by simpa using taken⟩

/-- A key that lookup tables must not supply is left. -/
theorem Supplies.mem_of_not_isLoadable (supplied : table.Supplies use writable readonly rest)
    {key : Address} (member : key ∈ table.keys) (stays : (use key).isLoadable = false) :
    key ∈ rest.keys := by
  have spared : key ∉ writable ++ readonly := by
    intro taken
    rw [supplied.isLoadable taken] at stays
    cases stays
  rw [supplied.keys_eq, List.mem_filter]
  exact ⟨member, by simpa using spared⟩

section Collected

variable {payer : Option Address} {instructions : List Instruction} {key : Address}

/-- Of the collected keys all that sign are left, the payer among them. -/
theorem Supplies.mem_of_isSigner
    (supplied : (ofInstructions payer instructions).Supplies (Mentions.use payer instructions)
      writable readonly rest)
    (signs : Mentions.isSigner payer instructions key = true) : key ∈ rest.keys := by
  apply supplied.mem_of_not_isLoadable
  · exact mem_keys_ofInstructions.mpr (Mentions.isMentioned_of_isSigner signs)
  · simp [KeyUse.isLoadable, Mentions.use, signs]

/-- Of the collected keys all that are run are left. -/
theorem Supplies.mem_of_isProgram
    (supplied : (ofInstructions payer instructions).Supplies (Mentions.use payer instructions)
      writable readonly rest)
    (invoked : Mentions.isProgram instructions key = true) : key ∈ rest.keys := by
  obtain ⟨instruction, member, runs⟩ := List.any_eq_true.mp invoked
  apply supplied.mem_of_not_isLoadable
  · exact mem_keys_ofInstructions.mpr (Or.inr ⟨instruction, member, Or.inl (beq_iff_eq.mp runs)⟩)
  · simp [KeyUse.isLoadable, Mentions.use, invoked]

end Collected

/-- Lookup tables that supplied what they hold hold nothing that is still on offer. -/
theorem not_mem_addresses_of_extractAll {sources : List LookupTable}
    {selections : List (TableLookup × LoadedAddresses)} (records : table.Records use)
    (extracted : table.extractAll sources = .ok (selections, rest)) {source : LookupTable}
    (used : source ∈ sources) {writes : Bool} {key : Address}
    (offered : rest.Offers use writes key) : key ∉ source.addresses := by
  obtain ⟨numbers, exactly⟩ := extracted_of_extractAll records extracted
  have nowhere := ((exactly.left writes key).mp offered).2
  rw [LookupTable.firstHolder?, List.findIdx?_eq_none_iff] at nowhere
  simpa using nowhere source used

end KeyTable

namespace KeyRegister

variable {register : KeyRegister} {table : KeyTable} {use : Address → KeyUse}

/-- Removing nothing changes nothing, since the map and the order hold the same keys. -/
theorem Mirrors.remove_nil (mirrors : register.Mirrors table use) :
    register.remove [] = register := by
  have retained : register.orderedKeys.filter (fun key => register.uses.contains key) =
      register.orderedKeys := by
    rw [List.filter_eq_self]
    intro key member
    exact Std.TreeMap.mem_iff_contains.mp ((mirrors.mem_uses_iff key).mpr member)
  rw [KeyRegister.remove, List.foldl_nil, retained]

/-- A lookup table that holds no key of a certain use leaves a drain nothing to take. -/
theorem Mirrors.drain_eq_of_unheld (mirrors : register.Mirrors table use)
    (records : table.Records use) {addresses : List Address} {wanted : KeyUse → Bool}
    (unheld : ∀ key ∈ table.select wanted, key ∉ addresses) :
    register.drain addresses wanted = .ok ([], [], register) := by
  have nothing : register.found addresses wanted = [] := by
    rw [found, mirrors.select_eq records, List.filterMap_eq_nil_iff]
    intro key selected
    rw [List.idxOf?_eq_none_iff.mpr (unheld key selected), Option.map_none]
  rw [drain, nothing]
  simp [Pure.pure, Bind.bind, Except.pure, Except.bind, mirrors.remove_nil]

/-- A lookup table that holds nothing on offer supplies nothing and leaves the register as it is. -/
theorem Mirrors.extract_eq_of_unheld (mirrors : register.Mirrors table use)
    (records : table.Records use) {source : LookupTable}
    (unheld : ∀ writes key, table.Offers use writes key → key ∉ source.addresses) :
    register.extract source = .ok (none, register) := by
  have drained : ∀ (writes : Bool) (wanted : KeyUse → Bool),
      (∀ use, wanted use = true ↔ use.isLoadable = true ∧ use.isWritable = writes) →
      register.drain source.addresses wanted = .ok ([], [], register) := by
    intro writes wanted wanted_iff
    apply mirrors.drain_eq_of_unheld records
    intro key selected
    exact unheld writes key
      ((KeyTable.mem_select_iff_offers records wanted_iff key).mp selected)
  rw [extract, drained true _ (by simp)]
  simp only [Bind.bind, Except.bind]
  rw [drained false _ (by simp)]
  rfl

/-- A register that some lookup tables have gone through keeps its order and its map in step, and
loses no key of those that were collected. -/
structure Kept (payer : Option Address) (instructions : List Instruction)
    (sources : List LookupTable) (selections : List (TableLookup × LoadedAddresses))
    (register : KeyRegister) : Prop where
  /-- No key stands in the order twice. -/
  nodup : register.orderedKeys.Nodup
  /-- The map holds the keys of the order, and no others. -/
  mem_uses_iff : ∀ key, key ∈ register.uses ↔ key ∈ register.orderedKeys
  /-- What was asked of the keys that are left is still asked of them. -/
  uses_eq : ∀ key ∈ register.orderedKeys,
    register.uses[key]? = (ofInstructions payer instructions).uses[key]?
  /-- They are in the order in which they were collected. -/
  sublist : register.orderedKeys.Sublist (ofInstructions payer instructions).orderedKeys
  /-- The payer pays and is left. -/
  payer_mem : ∀ key, Mentions.Pays payer key →
    register.payer = some key ∧ key ∈ register.orderedKeys
  /-- All signers are left. -/
  signer_mem : ∀ key, Mentions.isSigner payer instructions key = true → key ∈ register.orderedKeys
  /-- All programs are left. -/
  program_mem : ∀ key, Mentions.isProgram instructions key = true → key ∈ register.orderedKeys
  /-- What was supplied and what is left are the collected keys. -/
  perm : (LoadedAddresses.taken selections ++ register.orderedKeys).Perm
    (ofInstructions payer instructions).orderedKeys
  /-- No key was supplied twice, or supplied and left. -/
  nodup_taken : (LoadedAddresses.taken selections ++ register.orderedKeys).Nodup
  /-- A lookup table that was used before supplies nothing again. -/
  again : ∀ source ∈ sources, register.extract source = .ok (none, register)

/-- Lookup tables lead a register of collected keys and the table that it mirrors to the same
outcome, and where they succeed, no key is lost. -/
theorem kept_of_extractAll (payer : Option Address) (instructions : List Instruction)
    (sources : List LookupTable) (selections : List (TableLookup × LoadedAddresses))
    (register : KeyRegister)
    (extracted : (ofInstructions payer instructions).extractAll sources =
      .ok (selections, register)) :
    Kept payer instructions sources selections register ∧
      ∃ rest, (KeyTable.ofInstructions payer instructions).extractAll sources =
        .ok (selections, rest) ∧ register.Mirrors rest (Mentions.use payer instructions) := by
  have collected := mirrors_ofInstructions payer instructions
  have records := KeyTable.records_ofInstructions payer instructions
  obtain ⟨⟨_, rest⟩, succeeded, rfl, mirrors⟩ :=
    (alike_extractAll collected records sources).exists_right extracted
  refine ⟨?_, rest, succeeded, mirrors⟩
  obtain ⟨supplied, _⟩ := KeyTable.supplies_of_extractAll records succeeded
  have permuted : (LoadedAddresses.taken selections ++ register.orderedKeys).Perm
      (ofInstructions payer instructions).orderedKeys := by
    rw [mirrors.orderedKeys_eq, collected.orderedKeys_eq]
    exact ((LoadedAddresses.taken_perm selections).append_right rest.keys).trans
      (supplied.perm records)
  constructor
  case nodup =>
    rw [mirrors.orderedKeys_eq]
    exact supplied.records.nodup
  case mem_uses_iff => exact mirrors.mem_uses_iff
  case uses_eq =>
    intro key member
    rw [mirrors.orderedKeys_eq] at member
    have collectedKey : key ∈ (KeyTable.ofInstructions payer instructions).keys := by
      rw [supplied.keys_eq] at member
      exact List.mem_of_mem_filter member
    rw [mirrors.uses_eq, if_pos member, collected.uses_eq, if_pos collectedKey]
  case sublist =>
    rw [mirrors.orderedKeys_eq, collected.orderedKeys_eq, supplied.keys_eq]
    exact List.filter_sublist
  case payer_mem =>
    intro key pays
    rw [mirrors.payer_eq, supplied.payer_eq, mirrors.orderedKeys_eq]
    exact ⟨(Mentions.effectivePayer_eq_some_iff payer key).mpr pays,
      supplied.mem_of_isSigner (by simp [Mentions.isSigner, pays])⟩
  case signer_mem =>
    intro key signs
    rw [mirrors.orderedKeys_eq]
    exact supplied.mem_of_isSigner signs
  case program_mem =>
    intro key invoked
    rw [mirrors.orderedKeys_eq]
    exact supplied.mem_of_isProgram invoked
  case perm => exact permuted
  case nodup_taken =>
    rw [permuted.nodup_iff, collected.orderedKeys_eq]
    exact records.nodup
  case again =>
    intro source used
    exact mirrors.extract_eq_of_unheld supplied.records fun writes key =>
      KeyTable.not_mem_addresses_of_extractAll records succeeded used

/-- The first of the three overlapping tables supplies the second account and the third the fourth;
the keys that are left are those that sign and the program. -/
theorem kept_of_extractAll_sample :
    ∃ selections register,
      (ofInstructions (some (.numbered 1)) sampleInstructions).extractAll sampleOverlapping =
        .ok (selections, register) ∧
      LoadedAddresses.taken selections = [.numbered 2, .numbered 4] ∧
      register.orderedKeys = [.numbered 9, .numbered 1, .numbered 3] ∧
      Kept (some (.numbered 1)) sampleInstructions sampleOverlapping selections register := by
  have tableRun : ∃ rest,
      (KeyTable.ofInstructions (some (.numbered 1)) sampleInstructions).extractAll
        sampleOverlapping = .ok
          ([(⟨.numbered 5, [1], []⟩, ⟨[.numbered 2], []⟩),
            (⟨.numbered 5, [], [1]⟩, ⟨[], [.numbered 4]⟩)], rest) ∧
      rest.keys = [.numbered 9, .numbered 1, .numbered 3] :=
    ⟨⟨some (.numbered 1), [(.numbered 9, ⟨false, false, true⟩), (.numbered 1, ⟨true, true, false⟩),
      (.numbered 3, ⟨true, false, false⟩)]⟩, by decide, by decide⟩
  obtain ⟨rest, succeeded, left⟩ := tableRun
  obtain ⟨⟨_, register⟩, extracted, rfl, mirrors⟩ := (alike_extractAll (mirrors_ofInstructions _ _)
    (KeyTable.records_ofInstructions _ _) _).exists_left succeeded
  exact ⟨_, register, extracted, rfl, mirrors.orderedKeys_eq.trans left,
    (kept_of_extractAll _ _ _ _ _ extracted).1⟩

end KeyRegister

end Transact
