import Transact.Proofs.Decompilation

/-!
# Recompiling a decompiled message

What a message decompiles to is not what it was compiled from: of each account it reports what any
instruction asked of its key. Compilation cannot tell the difference. It joins the permissions of a
key over all mentions anyway, joined permissions stay as they are when they are joined again
(`Mentions.use_merged`), and places are given out by keys alone (`AccountKeys.compile_restate`).

The main statement, `Message.compile_of_decompile`, is that compiling what a compiled message
decompiles to gives the message back, in either format.
-/

namespace Transact

variable {payer : Option Address} {instructions : List Instruction} {recentBlockhash : Hash}

namespace Mentions

/-- Whether some account of some instruction names a key. -/
def isNamed (instructions : List Instruction) (key : Address) : Bool :=
  isAsked (fun _ => true) instructions key

/-- An account that has a permission names its key. -/
theorem isNamed_of_isAsked {permission : AccountMeta → Bool} {key : Address}
    (asked : isAsked permission instructions key = true) : isNamed instructions key = true := by
  simp only [isNamed, isAsked, List.any_eq_true, Bool.and_eq_true, beq_iff_eq] at asked ⊢
  obtain ⟨instruction, member, account, named, names, _⟩ := asked
  exact ⟨instruction, member, account, named, names, trivial⟩

/-- Where permissions go by keys, a key is asked for one when it is named and has it. -/
theorem isAsked_restate {signs writes : Address → Bool} {permission : AccountMeta → Bool}
    (granted : Address → Bool) (grants : ∀ account : AccountMeta,
      permission { account with isSigner := signs account.address,
                                isWritable := writes account.address } = granted account.address)
    (key : Address) :
    isAsked permission (instructions.map (AccountKeys.restate signs writes)) key =
      (isNamed instructions key && granted key) := by
  rw [Bool.eq_iff_iff]
  simp only [isNamed, isAsked, AccountKeys.restate, List.any_map, List.any_eq_true,
    Function.comp_apply, Bool.and_eq_true, beq_iff_eq, grants]
  constructor
  · rintro ⟨instruction, member, account, named, rfl, has⟩
    exact ⟨⟨instruction, member, account, named, rfl, trivial⟩, has⟩
  · rintro ⟨⟨instruction, member, account, named, rfl, _⟩, has⟩
    exact ⟨instruction, member, account, named, rfl, has⟩

/-- A key that has a permission because it pays or because some account asks for it has it again
when every account asks for what its key has. -/
theorem or_isNamed_and_eq {pays : Bool} {permission : AccountMeta → Bool} {key : Address} :
    (pays || (isNamed instructions key && (pays || isAsked permission instructions key))) =
      (pays || isAsked permission instructions key) := by
  cases pays with
  | true => simp
  | false =>
    rw [Bool.eq_iff_iff]
    simp only [Bool.false_or, Bool.and_eq_true, and_iff_right_iff_imp]
    exact isNamed_of_isAsked

/-- Joining the permissions of accounts leaves the mentions of keys in their order. -/
theorem ofInstructions_merged (payer : Option Address) (instructions : List Instruction) :
    ofInstructions (Instruction.merged payer instructions) = ofInstructions instructions := by
  simp only [ofInstructions, Instruction.merged, AccountKeys.restate, List.flatMap_map,
    List.map_map, Function.comp_def]

/-- Joined permissions are joined to themselves: nothing else is asked of any key. -/
theorem use_merged (payer : Option Address) (instructions : List Instruction) :
    use payer (Instruction.merged payer instructions) = use payer instructions := by
  funext key
  have signer : isSigner payer (Instruction.merged payer instructions) key =
      isSigner payer instructions key := by
    rw [isSigner, Instruction.merged,
      isAsked_restate (isSigner payer instructions) fun _ => rfl, isSigner, or_isNamed_and_eq]
  have writable : isWritable payer (Instruction.merged payer instructions) key =
      isWritable payer instructions key := by
    rw [isWritable, Instruction.merged,
      isAsked_restate (isWritable payer instructions) fun _ => rfl, isWritable, or_isNamed_and_eq]
  have program : isProgram (Instruction.merged payer instructions) key =
      isProgram instructions key := by
    simp only [isProgram, Instruction.merged, AccountKeys.restate, List.any_map,
      Function.comp_def]
  rw [use, use, signer, writable, program]

end Mentions

/-- The same table of keys is collected from the instructions with their permissions joined. -/
theorem KeyTable.ofInstructions_merged (payer : Option Address) (instructions : List Instruction) :
    ofInstructions payer (Instruction.merged payer instructions) =
      ofInstructions payer instructions := by
  have entries : (ofInstructions payer (Instruction.merged payer instructions)).entries =
      (ofInstructions payer instructions).entries := by
    rw [entries_ofInstructions, entries_ofInstructions, Mentions.ofInstructions_merged,
      Mentions.use_merged]
  exact congrArg (KeyTable.mk (effectivePayer payer)) entries

/-- Places do not depend on permissions. -/
theorem AccountKeys.compile_restate (keys : AccountKeys) (signs writes : Address → Bool)
    (instructions : List Instruction) :
    keys.compile (instructions.map (restate signs writes)) = keys.compile instructions := by
  have one : compileOne keys.toList ∘ restate signs writes = compileOne keys.toList := by
    funext instruction
    simp only [Function.comp_apply, compileOne, restate, List.mapM_map, Function.comp_def]
  simp only [compile, List.mapM_map, one]

/-- Places are given out alike to the instructions with their permissions joined. -/
theorem AccountKeys.compile_merged (keys : AccountKeys) (payer : Option Address)
    (instructions : List Instruction) :
    keys.compile (Instruction.merged payer instructions) = keys.compile instructions :=
  keys.compile_restate _ _ instructions

/-- There are as many instructions with their permissions joined. -/
theorem Instruction.isEmpty_merged (payer : Option Address) (instructions : List Instruction) :
    (merged payer instructions).isEmpty = instructions.isEmpty :=
  List.isEmpty_map

/-- A legacy message is compiled alike from the instructions with their permissions joined. -/
theorem LegacyMessage.compile_merged (payer : Option Address) (instructions : List Instruction)
    (recentBlockhash : Hash) :
    LegacyMessage.compile payer (Instruction.merged payer instructions) recentBlockhash =
      LegacyMessage.compile payer instructions recentBlockhash := by
  simp only [LegacyMessage.compile, Instruction.isEmpty_merged, KeyTable.ofInstructions_merged,
    AccountKeys.compile_merged]

/-- A version 0 message is compiled alike from the instructions with their permissions joined. -/
theorem V0Message.compile_merged (payer : Option Address) (instructions : List Instruction)
    (tables : List LookupTable) (recentBlockhash : Hash) :
    V0Message.compile payer (Instruction.merged payer instructions) tables recentBlockhash =
      V0Message.compile payer instructions tables recentBlockhash := by
  simp only [V0Message.compile, Instruction.isEmpty_merged, KeyTable.ofInstructions_merged,
    AccountKeys.compile_merged]

/-- Compiling what a compiled message decompiles to, for the same payer, block and lookup tables,
gives the very same message. -/
theorem Message.compile_of_decompile (payer : Option Address) (instructions : List Instruction)
    (recentBlockhash : Hash) :
    (∀ message decompiled,
      LegacyMessage.compile payer instructions recentBlockhash = .ok message →
        message.decompile = .ok decompiled →
          LegacyMessage.compile payer decompiled recentBlockhash = .ok message) ∧
    ∀ tables message decompiled, (tables.map LookupTable.key).Nodup →
      V0Message.compile payer instructions tables recentBlockhash = .ok message →
        message.decompile tables = .ok decompiled →
          V0Message.compile payer decompiled tables recentBlockhash = .ok message := by
  constructor
  · intro message decompiled compiled answered
    obtain rfl : Instruction.merged payer instructions = decompiled := by
      rw [LegacyMessage.decompile_eq_merged compiled] at answered
      exact Except.ok.inj answered
    rw [LegacyMessage.compile_merged, compiled]
  · intro tables message decompiled distinct compiled answered
    obtain rfl : Instruction.merged payer instructions = decompiled := by
      rw [V0Message.decompile_eq_merged distinct compiled] at answered
      exact Except.ok.inj answered
    rw [V0Message.compile_merged, compiled]

/-- The instructions of the sample as its messages report them: the second account is writable in
both. -/
def sampleDecompiled : List Instruction :=
  [⟨.numbered 9, [⟨.numbered 1, true, true⟩, ⟨.numbered 2, false, true⟩,
      ⟨.numbered 3, true, false⟩], []⟩,
    ⟨.numbered 9, [⟨.numbered 2, false, true⟩, ⟨.numbered 4, false, false⟩], [7]⟩]

/-- The sample decompiles to other instructions, of which both messages are compiled again. -/
theorem Message.compile_of_decompile_sample :
    sampleDecompiled ≠ sampleInstructions ∧
    (sampleLegacy.decompile = .ok sampleDecompiled ∧
      LegacyMessage.compile (some (.numbered 1)) sampleDecompiled Hash.zero = .ok sampleLegacy) ∧
    (sampleV0.decompile [sampleTable] = .ok sampleDecompiled ∧
      V0Message.compile (some (.numbered 1)) sampleDecompiled [sampleTable] Hash.zero =
        .ok sampleV0) := by
  obtain ⟨legacy, v0⟩ :=
    Message.compile_of_decompile (some (.numbered 1)) sampleInstructions Hash.zero
  have legacyDecompiled : sampleLegacy.decompile = .ok sampleDecompiled := by decide
  have v0Decompiled : sampleV0.decompile [sampleTable] = .ok sampleDecompiled := by decide
  exact ⟨by decide, ⟨legacyDecompiled, legacy _ _ compile_sampleLegacy legacyDecompiled⟩,
    v0Decompiled,
    v0 _ _ _ (List.nodup_singleton _) compile_sampleV0 v0Decompiled⟩

end Transact
