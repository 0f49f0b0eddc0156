import Transact.Proofs.Compilation

/-!
# Compilation classifies keys exactly

The permissions of a key are never written into a message. They are read off its place, from the
three counts of the header and the sizes of the lookups. A message classifies keys exactly when what
is read off every place is what the instructions asked of the key that stands there (`Classified`).

The main statement, `Message.classified_of_compile`, is that every compiled message of either format
does. It says nothing of how keys come together: one may pay, be run, sign and stand in lookup
tables, in any combination.
-/

namespace Transact

variable {payer : Option Address} {instructions : List Instruction} {recentBlockhash : Hash}

/-- The keys that the places of a message run through when its lookups load certain keys. -/
def Message.keysWith (message : Message) (loaded : LoadedAddresses) : List Address :=
  message.staticAccountKeys ++ loaded.writable ++ loaded.readonly

/-- A message, whose lookups load certain keys, classifies keys exactly when its carried and loaded
keys are those mentioned, each once, and every place is judged as its key is asked. -/
structure Classified (payer : Option Address) (instructions : List Instruction) (message : Message)
    (loaded : LoadedAddresses) : Prop where
  /-- No key has two places. -/
  nodup : (message.keysWith loaded).Nodup
  /-- The keys that have a place are those mentioned. -/
  mem_iff : ∀ key, key ∈ message.keysWith loaded ↔
    Mentions.IsMentioned payer instructions key
  /-- A place signs when some account that names its key signs, or the key pays. -/
  isSigner : ∀ index key, (message.keysWith loaded)[index]? = some key →
    message.isSigner index = Mentions.isSigner payer instructions key
  /-- A place is writable when some account that names its key is, or the key pays. -/
  isWritableIndex : ∀ index key, (message.keysWith loaded)[index]? = some key →
    message.isWritableIndex index = Mentions.isWritable payer instructions key
  /-- A place is a program's when some instruction runs its key. -/
  isKeyCalledAsProgram : ∀ index key, (message.keysWith loaded)[index]? = some key →
    (message.isKeyCalledAsProgram index = true ↔
      ∃ instruction ∈ instructions, instruction.programId = key)
  /-- A place may be written when it is writable and no instruction runs its key. -/
  isMaybeWritable : ∀ index key, (message.keysWith loaded)[index]? = some key →
    (message.isMaybeWritable index = true ↔
      Mentions.isWritable payer instructions key = true ∧
        ¬∃ instruction ∈ instructions, instruction.programId = key)
  /-- The carried keys stand in four groups, each in the order of first mention and the first with
  the payer in front. -/
  staticAccountKeys : message.staticAccountKeys =
    Mentions.group payer instructions (loaded.writable ++ loaded.readonly) true true ++
    Mentions.group payer instructions (loaded.writable ++ loaded.readonly) true false ++
    Mentions.group payer instructions (loaded.writable ++ loaded.readonly) false true ++
    Mentions.group payer instructions (loaded.writable ++ loaded.readonly) false false
  /-- The header counts the two groups of signers, the readonly signers and the last group. -/
  header :
    message.header.signers =
      (Mentions.group payer instructions (loaded.writable ++ loaded.readonly) true true ++
        Mentions.group payer instructions (loaded.writable ++ loaded.readonly) true false).length ∧
    message.header.readonlySigners =
      (Mentions.group payer instructions (loaded.writable ++ loaded.readonly) true false).length ∧
    message.header.readonlyOthers =
      (Mentions.group payer instructions (loaded.writable ++ loaded.readonly) false false).length

/-- A message that is arranged classifies keys exactly, when its places are judged as those of a
version 0 message are. A legacy message is judged in the same way: where no key is loaded the two
ways to compare a place with the groups agree. -/
theorem Arranged.classified {rest : KeyTable} {message : Message} {loaded : LoadedAddresses}
    (arranged : Arranged payer instructions rest message.common loaded)
    (isWritableIndex : ∀ index, index < (message.keysWith loaded).length →
      message.isWritableIndex index =
        V0Message.isWritablePlace message.common.header message.common.accountKeys.length
          loaded.writable.length index)
    (isMaybeWritable : ∀ index, message.isMaybeWritable index =
      (message.isWritableIndex index && !message.isKeyCalledAsProgram index)) :
    Classified payer instructions message loaded := by
  have writable : ∀ index key, (message.keysWith loaded)[index]? = some key →
      message.isWritableIndex index = Mentions.isWritable payer instructions key := by
    intro index key found
    rw [isWritableIndex index (List.getElem?_eq_some_iff.mp found).1]
    exact (arranged.permissions found).2
  have called : ∀ index key, (message.keysWith loaded)[index]? = some key →
      (message.isKeyCalledAsProgram index = true ↔
        ∃ instruction ∈ instructions, instruction.programId = key) := by
    intro index key found
    rw [Message.isKeyCalledAsProgram, arranged.isKeyCalledAsProgram_eq found]
    simp [Mentions.isProgram]
  refine ⟨arranged.nodup, arranged.mem_iff, ?_, writable, called, ?_, arranged.accountKeys_eq,
    arranged.header_eq⟩
  · intro index key found
    exact (arranged.permissions found).1
  · intro index key found
    rw [isMaybeWritable, Bool.and_eq_true, Bool.not_eq_true', ← Bool.not_eq_true,
      writable index key found, called index key found]

/-- Compilation classifies keys exactly, for both formats. The keys of a version 0 message include
those which its lookups load from the tables it was compiled with, and these always resolve as long
as no two tables share a key. -/
theorem Message.classified_of_compile (payer : Option Address) (instructions : List Instruction)
    (recentBlockhash : Hash) :
    (∀ message, LegacyMessage.compile payer instructions recentBlockhash = .ok message →
      Classified payer instructions (.legacy message) ⟨[], []⟩) ∧
    (∀ tables message, (tables.map LookupTable.key).Nodup →
      V0Message.compile payer instructions tables recentBlockhash = .ok message →
        ∃ loaded, message.loadAddresses tables = .ok loaded ∧
          Classified payer instructions (.v0 message) loaded) := by
  constructor
  · intro message compiled
    have arranged : Arranged payer instructions _ (Message.legacy message).common ⟨[], []⟩ :=
      LegacyMessage.arranged_of_compile compiled
    refine arranged.classified ?_ fun _ => rfl
    intro index inside
    simp only [Message.keysWith, List.append_nil] at inside
    have carried : index < message.accountKeys.length := inside
    exact (V0Message.isWritablePlace_eq _ _ _ _ carried).symm
  · intro tables message distinct compiled
    obtain ⟨rest, loaded, resolved, arranged⟩ :=
      V0Message.loadAddresses_of_compile distinct compiled
    have arranged : Arranged payer instructions rest (Message.v0 message).common loaded := arranged
    refine ⟨loaded, resolved, arranged.classified ?_ fun _ => rfl⟩
    intro index _
    rw [Message.isWritableIndex, V0Message.isWritableIndex,
      V0Message.numLoadedWritable_eq resolved]
    rfl

/-- Both messages of the sample classify its keys exactly. -/
theorem classified_sample :
    (LegacyMessage.compile (some (.numbered 1)) sampleInstructions Hash.zero = .ok sampleLegacy ∧
      Classified (some (.numbered 1)) sampleInstructions (.legacy sampleLegacy) ⟨[], []⟩) ∧
    (V0Message.compile (some (.numbered 1)) sampleInstructions [sampleTable] Hash.zero =
        .ok sampleV0 ∧
      ∃ loaded, sampleV0.loadAddresses [sampleTable] = .ok loaded ∧
        Classified (some (.numbered 1)) sampleInstructions (.v0 sampleV0) loaded) := by
  obtain ⟨legacy, v0⟩ :=
    Message.classified_of_compile (some (.numbered 1)) sampleInstructions Hash.zero
  exact ⟨⟨compile_sampleLegacy, legacy _ compile_sampleLegacy⟩, compile_sampleV0,
    v0 [sampleTable] _ (List.nodup_singleton _) compile_sampleV0⟩

end Transact
