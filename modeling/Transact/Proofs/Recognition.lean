import Transact.Proofs.Compilation
import Transact.Proofs.WrittenMessages

/-!
# Which compiled messages are read back

Compilation puts every key that is asked to sign among the signers, and its only limit on them is
that their number fits a byte. The wire form of a legacy message begins with that byte and keeps its
high bit free for the marks of versions. So a compiled message is read back exactly when it is of
version 0 or has fewer than 128 signers (`Message.ofBytes_eq_ok_iff_of_compile`); one with more is
compiled and written, but its own bytes announce another format.
-/

namespace Transact

variable {payer : Option Address} {instructions : List Instruction} {recentBlockhash : Hash}

/-- The mentioned keys that must sign. -/
def Mentions.signers (payer : Option Address) (instructions : List Instruction) : List Address :=
  (Mentions.order payer instructions).filter (Mentions.isSigner payer instructions)

/-- A compiled legacy message has all keys that must sign as its signers. -/
theorem LegacyMessage.signers_of_compile {message : LegacyMessage}
    (compiled : LegacyMessage.compile payer instructions recentBlockhash = .ok message) :
    message.header.signers = (Mentions.signers payer instructions).length := by
  obtain ⟨counted, _⟩ := (LegacyMessage.arranged_of_compile compiled).header_eq
  have divided : (Mentions.signers payer instructions).length = _ :=
    List.length_eq_length_filter_add (Mentions.isWritable payer instructions)
  rw [counted, divided, List.length_append, Mentions.signers, List.filter_filter,
    List.filter_filter]
  simp only [Mentions.group, List.append_nil, List.contains_nil, Bool.not_false, Bool.true_and,
    beq_true, beq_false, Bool.and_comm]

/-- No lookup of a compiled message is empty, since a table from which nothing is taken is passed
over. -/
theorem V0Message.withoutEmptyLookups_of_compile {tables : List LookupTable} {message : V0Message}
    (compiled : V0Message.compile payer instructions tables recentBlockhash = .ok message) :
    message.withoutEmptyLookups = message := by
  obtain ⟨selections, _, lookups, resolved, _⟩ := V0Message.arranged_of_compile compiled
  have nonempty : ∀ lookup ∈ message.addressTableLookups, (!lookup.isEmpty) = true := by
    rw [lookups]
    intro lookup member
    obtain ⟨made, selected, rfl⟩ := List.mem_map.mp member
    obtain ⟨source, _, resolves⟩ := resolved made selected
    rw [resolves.isEmpty_eq]
    rfl
  rw [V0Message.withoutEmptyLookups, List.filter_eq_self.mpr nonempty]

/-- A compiled message that is written is read back as the very same message exactly when a table
was given, so that the version 0 format was chosen, or fewer than 128 keys must sign. -/
theorem Message.ofBytes_eq_ok_iff_of_compile (payer : Option Address)
    (instructions : List Instruction) (recentBlockhash : Hash) (table : Option LookupTable)
    (message : Message) (bytes : Bytes)
    (compiled : Message.compile payer instructions recentBlockhash table = .ok message)
    (written : message.toBytes = .ok bytes) :
    Message.ofBytes bytes = .ok message ↔
      table.isSome = true ∨ (Mentions.signers payer instructions).length < 128 := by
  rw [Message.ofBytes_eq_ok_iff_of_toBytes written]
  cases table with
  | none =>
    obtain ⟨legacy, legacyCompiled, rfl⟩ := (Outcome.map_eq_ok_iff _ _ _).mp compiled
    rw [← LegacyMessage.signers_of_compile legacyCompiled]
    simp [Message.IsRecognizable, Message.withoutEmptyLookups]
  | some table =>
    obtain ⟨v0, v0Compiled, rfl⟩ := (Outcome.map_eq_ok_iff _ _ _).mp compiled
    simp [Message.IsRecognizable, Message.withoutEmptyLookups,
      V0Message.withoutEmptyLookups_of_compile v0Compiled]

/-- The messages of the sample are read back: one has few signers and the other has a table. -/
theorem ofBytes_sample :
    (∃ bytes,
      Message.compile (some (.numbered 1)) sampleInstructions Hash.zero none =
        .ok (.legacy sampleLegacy) ∧
      sampleLegacy.toBytes = .ok bytes ∧ Message.ofBytes bytes = .ok (.legacy sampleLegacy)) ∧
    ∃ bytes,
      Message.compile (some (.numbered 1)) sampleInstructions Hash.zero (some sampleTable) =
        .ok (.v0 sampleV0) ∧
      sampleV0.toBytes = .ok bytes ∧ Message.ofBytes bytes = .ok (.v0 sampleV0) := by
  have compiledLegacy : Message.compile (some (.numbered 1)) sampleInstructions Hash.zero none =
      .ok (.legacy sampleLegacy) := by
    rw [Message.compile, compile_sampleLegacy]
    rfl
  have compiledV0 : Message.compile (some (.numbered 1)) sampleInstructions Hash.zero
      (some sampleTable) = .ok (.v0 sampleV0) := by
    rw [Message.compile, compile_sampleV0]
    rfl
  refine ⟨⟨_, compiledLegacy, rfl, ?_⟩, ⟨_, compiledV0, rfl, ?_⟩⟩
  · exact (Message.ofBytes_eq_ok_iff_of_compile _ _ _ _ _ _ compiledLegacy rfl).mpr
      (Or.inr (by decide))
  · exact (Message.ofBytes_eq_ok_iff_of_compile _ _ _ _ _ _ compiledV0 rfl).mpr (Or.inl rfl)

/-- One instruction with 128 accounts that all sign. Their first bytes differ, so that they are told
apart quickly. -/
def crowdedInstructions : List Instruction :=
  [⟨.numbered 200, (List.range 128).map fun number =>
      ⟨⟨FixedList.ofNat 32 (number + 1)⟩, true, false⟩, []⟩]

/-- The first of them pays. The message of the crowded instruction is compiled and written, and its
bytes are taken for a version 0 message that ends before they do. -/
theorem ofBytes_crowded :
    ∃ message bytes,
      Message.compile (some ⟨FixedList.ofNat 32 1⟩) crowdedInstructions Hash.zero none =
        .ok message ∧
      message.toBytes = .ok bytes ∧ Message.ofBytes bytes = .error .trailingData := by
  have evaluated :
      ((Message.compile (some ⟨FixedList.ofNat 32 1⟩) crowdedInstructions Hash.zero
        none).toOption.bind fun message => message.toBytes.toOption.map Message.ofBytes) =
          some (.error .trailingData) := by decide +kernel
  obtain ⟨message, compiled, read⟩ := Option.bind_eq_some_iff.mp evaluated
  obtain ⟨bytes, written, refused⟩ := Option.map_eq_some_iff.mp read
  exact ⟨message, bytes, Outcome.toOption_eq_some_iff.mp compiled,
    Outcome.toOption_eq_some_iff.mp written, refused⟩

end Transact
