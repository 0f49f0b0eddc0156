import Transact.Proofs.Compilation

/-!
# Decompilation undoes compilation

A compiled message tells which programs run on which accounts with which data, all as the
instructions had it. Of permissions it keeps one set for each key, so a decompiled instruction
reports of an account whatever any instruction asked of its key (`Instruction.merged`).

The main statement, `Message.decompile_of_compile`, is that nothing else is lost, whichever format
was compiled and however many lookup tables supplied keys. The formats therefore decompile alike.
-/

namespace Transact

variable {payer : Option Address} {instructions : List Instruction} {recentBlockhash : Hash}

/-- The instructions with the permissions of every account joined over all mentions of its key. The
payer has both. -/
def Instruction.merged (payer : Option Address) (instructions : List Instruction) :
    List Instruction :=
  instructions.map
    (AccountKeys.restate (Mentions.isSigner payer instructions)
      (Mentions.isWritable payer instructions))

/-- A compiled legacy message decompiles to the instructions with their permissions joined. -/
theorem LegacyMessage.decompile_eq_merged {message : LegacyMessage}
    (compiled : LegacyMessage.compile payer instructions recentBlockhash = .ok message) :
    message.decompile = .ok (Instruction.merged payer instructions) := by
  have arranged := LegacyMessage.arranged_of_compile compiled
  refine AccountKeys.mapM_decompile (by simpa using arranged.refers) ?_
  intro index key found
  have carried : index < message.accountKeys.length := by
    simpa using (List.getElem?_eq_some_iff.mp found).1
  rw [← V0Message.isWritablePlace_eq _ _ 0 _ carried]
  exact arranged.permissions (by simpa using found)

/-- A compiled version 0 message decompiles to the same, given the tables it was compiled with. -/
theorem V0Message.decompile_eq_merged {tables : List LookupTable} {message : V0Message}
    (distinct : (tables.map LookupTable.key).Nodup)
    (compiled : V0Message.compile payer instructions tables recentBlockhash = .ok message) :
    message.decompile tables = .ok (Instruction.merged payer instructions) := by
  obtain ⟨rest, loaded, resolved, arranged⟩ := V0Message.loadAddresses_of_compile distinct compiled
  rw [V0Message.decompile, resolved, V0Message.numLoadedWritable_eq resolved]
  refine AccountKeys.mapM_decompile (by simpa using arranged.refers) ?_
  intro index key found
  exact arranged.permissions (by simpa using found)

/-- Decompilation gives back the compiled instructions with their permissions joined, for both
formats. Where both formats compile the same instructions they decompile alike. -/
theorem Message.decompile_of_compile (payer : Option Address) (instructions : List Instruction)
    (recentBlockhash : Hash) :
    (∀ message, LegacyMessage.compile payer instructions recentBlockhash = .ok message →
      message.decompile = .ok (Instruction.merged payer instructions)) ∧
    (∀ tables message, (tables.map LookupTable.key).Nodup →
      V0Message.compile payer instructions tables recentBlockhash = .ok message →
        message.decompile tables = .ok (Instruction.merged payer instructions)) ∧
    (∀ legacy tables v0, (tables.map LookupTable.key).Nodup →
      LegacyMessage.compile payer instructions recentBlockhash = .ok legacy →
        V0Message.compile payer instructions tables recentBlockhash = .ok v0 →
          legacy.decompile = v0.decompile tables) := by
  refine ⟨fun _ => LegacyMessage.decompile_eq_merged,
    fun _ _ => V0Message.decompile_eq_merged, ?_⟩
  intro legacy tables v0 distinct legacyCompiled v0Compiled
  rw [LegacyMessage.decompile_eq_merged legacyCompiled,
    V0Message.decompile_eq_merged distinct v0Compiled]

/-- Both messages of the sample decompile to its instructions, of which the second now reports its
first account as writable. -/
theorem decompile_sample :
    sampleLegacy.decompile = .ok (Instruction.merged (some (.numbered 1)) sampleInstructions) ∧
    sampleV0.decompile [sampleTable] =
      .ok (Instruction.merged (some (.numbered 1)) sampleInstructions) ∧
    sampleLegacy.decompile = sampleV0.decompile [sampleTable] := by
  obtain ⟨legacy, v0, alike⟩ :=
    Message.decompile_of_compile (some (.numbered 1)) sampleInstructions Hash.zero
  have distinct : ([sampleTable].map LookupTable.key).Nodup := List.nodup_singleton _
  exact ⟨legacy _ compile_sampleLegacy, v0 _ _ distinct compile_sampleV0,
    alike _ _ _ distinct compile_sampleLegacy compile_sampleV0⟩

end Transact
