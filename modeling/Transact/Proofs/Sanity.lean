import Transact.Proofs.ReadMessages

/-!
# What the checks of a message accept

A message is checked step by step, and the first step that fails is reported. A message that passes
all steps is coherent: its first signer is writable, its header describes no more keys than it
carries, no key is carried twice, a byte tells all keys apart, and every place refers to a key, a
program's place to a carried one that is not the first (`LegacyMessage.Coherent`).

The main statements say that the checks accept exactly the coherent messages, of version 0 those
without empty lookups (`LegacyMessage.sanitize_eq_ok_iff`, `V0Message.sanitize_eq_ok_iff`). So
whoever reasons about a checked message never has to follow the order of the steps.
-/

namespace Transact

namespace CompiledInstruction

/-- The places of an instruction refer to keys: the program's to one of the first `programs` but not
the very first, and every account's to one of the first `accounts`. -/
structure Within (instruction : CompiledInstruction) (programs accounts : Nat) : Prop where
  /-- The first key, who pays, is not run. -/
  program_pos : 0 < instruction.programIdIndex.toNat
  /-- The program is one of the keys that can be run. -/
  program_lt : instruction.programIdIndex.toNat < programs
  /-- Every account is one of the keys. -/
  accounts_lt : ∀ index ∈ instruction.accounts, index.toNat < accounts

/-- The check of one instruction accepts exactly places that refer to keys. -/
theorem sanitize_eq_ok_iff (instruction : CompiledInstruction) (programs accounts : Nat) :
    instruction.sanitize programs accounts = .ok () ↔ instruction.Within programs accounts := by
  unfold sanitize
  dsimp only
  constructor
  · intro passed
    split at passed
    · cases passed
    · rename_i program
      split at passed
      · cases passed
      · rename_i inside
        have below : ∀ index ∈ instruction.accounts, index.toNat < accounts := by
          simpa using inside
        exact ⟨by omega, by omega, below⟩
  · rintro ⟨positive, bounded, below⟩
    have inside : ¬(instruction.accounts.any fun index => decide (index.toNat ≥ accounts)) = true :=
      by simpa using below
    rw [if_neg (by omega), if_neg inside]

/-- The check of all instructions accepts exactly those of which each is accepted. -/
theorem sanitizeAll_eq_ok_iff (programs accounts : Nat) (instructions : List CompiledInstruction) :
    sanitizeAll programs accounts instructions = .ok () ↔
      ∀ instruction ∈ instructions, instruction.Within programs accounts := by
  induction instructions with
  | nil => simp [sanitizeAll]
  | cons instruction rest inductionHypothesis =>
    rw [sanitizeAll, List.forall_mem_cons, ← inductionHypothesis, ← sanitize_eq_ok_iff]
    cases instruction.sanitize programs accounts with
    | error fault => simp only [reduceCtorEq, false_and]
    | ok passed => simp only [true_and]

end CompiledInstruction

/-- The parts of a message agree with each other, when it loads a number of keys besides those it
carries. -/
structure LegacyMessage.Coherent (message : LegacyMessage) (loaded : Nat) : Prop where
  /-- Not all signers are readonly, so there is a first signer and it is writable. -/
  payer_writable : message.header.readonlySigners < message.header.signers
  /-- The header describes no more keys than are carried. -/
  described : message.header.signers + message.header.readonlyOthers ≤ message.accountKeys.length
  /-- No key is carried twice. -/
  nodup : message.accountKeys.Nodup
  /-- A byte tells all keys apart. -/
  bounded : message.accountKeys.length + loaded ≤ 256
  /-- Every place refers to a key, and programs are carried. -/
  within : ∀ instruction ∈ message.instructions,
    instruction.Within message.accountKeys.length (message.accountKeys.length + loaded)

/-- A message carries no key twice exactly when its keys are pairwise distinct. -/
theorem LegacyMessage.hasDuplicates_eq_false_iff (message : LegacyMessage) :
    message.hasDuplicates = false ↔ message.accountKeys.Nodup :=
  Address.hasDuplicates_eq_false_iff message.accountKeys

/-- The check of a legacy message accepts exactly the coherent ones. -/
theorem LegacyMessage.sanitize_eq_ok_iff (message : LegacyMessage) :
    message.sanitize = .ok () ↔ message.Coherent 0 := by
  simp only [sanitize, Outcome.check_eq_ok_iff, Outcome.refuse_eq_ok_iff, Bool.not_eq_true,
    hasDuplicates_eq_false_iff, MessageHeader.sanitize_eq_ok_iff,
    CompiledInstruction.sanitizeAll_eq_ok_iff]
  constructor
  · rintro ⟨⟨writable, described⟩, few, distinct, within⟩
    exact ⟨writable, described, distinct, by omega, within⟩
  · rintro ⟨writable, described, distinct, few, within⟩
    exact ⟨⟨writable, described⟩, by omega, distinct, within⟩

/-- The check of a version 0 message accepts exactly the coherent ones of which every lookup selects
something. A lookup loads as many keys as it has places. -/
theorem V0Message.sanitize_eq_ok_iff (message : V0Message) :
    message.sanitize = .ok () ↔
      message.toLegacyMessage.Coherent message.numLoaded ∧
        ∀ lookup ∈ message.addressTableLookups, lookup.isEmpty = false := by
  simp only [sanitize, Outcome.check_eq_ok_iff, Outcome.refuse_eq_ok_iff,
    LegacyMessage.hasDuplicates_eq_false_iff, MessageHeader.sanitize_eq_ok_iff,
    CompiledInstruction.sanitizeAll_eq_ok_iff, List.any_eq_true, not_exists, not_and,
    Bool.not_eq_true]
  constructor
  · rintro ⟨⟨writable, described⟩, distinct, selecting, few, within⟩
    exact ⟨⟨writable, described, distinct, by omega, within⟩, selecting⟩
  · rintro ⟨⟨writable, described, distinct, few, within⟩, selecting⟩
    exact ⟨⟨writable, described⟩, distinct, selecting, by omega, within⟩

/-- A checked message of either format is coherent. -/
theorem Message.exists_coherent_of_sanitize {message : Message} (sane : message.sanitize = .ok ()) :
    ∃ loaded, message.common.Coherent loaded := by
  cases message with
  | legacy message => exact ⟨0, (LegacyMessage.sanitize_eq_ok_iff message).mp sane⟩
  | v0 message => exact ⟨message.numLoaded, ((V0Message.sanitize_eq_ok_iff message).mp sane).1⟩

namespace V0Message

variable {message : V0Message}

/-- A checked message has no lookup that selects nothing. -/
theorem not_hasEmptyLookup_of_sanitize (sane : message.sanitize = .ok ()) :
    ¬message.HasEmptyLookup := by
  rintro ⟨lookup, member, empty⟩
  have selecting := ((sanitize_eq_ok_iff message).mp sane).2 lookup member
  rw [empty] at selecting
  cases selecting

/-- All lookups of a checked message are written. -/
theorem withoutEmptyLookups_of_sanitize (sane : message.sanitize = .ok ()) :
    message.withoutEmptyLookups = message :=
  (withoutEmptyLookups_eq_iff message).mpr (not_hasEmptyLookup_of_sanitize sane)

end V0Message

end Transact
