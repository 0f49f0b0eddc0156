import Mathlib.Data.List.Forall2
import Mathlib.Data.List.Nodup
import Transact.Compile.Message
import Transact.Message.CompiledInstruction
import Transact.Proofs.Mentions
import Transact.Proofs.Outcomes

/-!
# Places and the keys they stand for

A compiled instruction refers to the keys of an instruction when each of its places holds the key
at the same position (`AccountKeys.Refers`). Giving out places establishes this for every
instruction (`refers_of_compile`), which works among few enough keys that hold all those mentioned
(`exists_compile`). Reading places undoes it (`decompile_of_refers`), and, where no key has two
places, a place is a program's exactly when its key is run (`any_programIdIndex_eq`).
-/

namespace Transact.AccountKeys

/-- Without lookups the sequence of keys is the carried keys. -/
@[simp] theorem toList_none (static : List Address) : toList ⟨static, none⟩ = static := by
  simp [toList, segments]

/-- With lookups the carried keys come first, then the writable and the readonly loaded ones. -/
@[simp] theorem toList_some (static : List Address) (loaded : LoadedAddresses) :
    toList ⟨static, some loaded⟩ = static ++ loaded.writable ++ loaded.readonly := by
  simp [toList, segments]

/-- The key at a place is that of the whole sequence. -/
theorem get?_eq (keys : AccountKeys) (index : Nat) : keys.get? index = keys.toList[index]? :=
  keyIn_eq keys.segments index

/-- The places of a compiled instruction hold the keys of an instruction, and both have the same
data. -/
structure Refers (keys : List Address) (instruction : Instruction)
    (compiled : CompiledInstruction) : Prop where
  /-- The program's place holds the program. -/
  program : keys[compiled.programIdIndex.toNat]? = some instruction.programId
  /-- Each account's place holds the account at the same position. -/
  accounts : List.Forall₂ (fun account index => keys[index.toNat]? = some account.address)
    instruction.accounts compiled.accounts
  /-- The data are carried along. -/
  data_eq : compiled.data = instruction.data

/-- A place that is given out holds its key. A byte is wide enough for every place. -/
theorem getElem?_of_place {keys : List Address} {key : Address} {index : UInt8}
    (bounded : keys.length ≤ 256) (placed : place keys key = .ok index) :
    keys[index.toNat]? = some key := by
  unfold place at placed
  split at placed
  · rename_i position found
    cases placed
    obtain ⟨inside, holds, _⟩ := List.idxOf?_eq_some_iff.mp found
    have whole : (UInt8.ofNat position).toNat = position := by
      rw [UInt8.toNat_ofNat']
      omega
    rw [whole, List.getElem?_eq_getElem inside, holds]
  · cases placed

/-- Giving out places makes compiled instructions that refer to the keys of the instructions, among
no more keys than a byte can tell apart. -/
theorem refers_of_compile {keys : AccountKeys} {instructions : List Instruction}
    {compiled : List CompiledInstruction} (succeeded : keys.compile instructions = .ok compiled) :
    keys.toList.length ≤ 256 ∧ List.Forall₂ (Refers keys.toList) instructions compiled := by
  unfold compile at succeeded
  dsimp only at succeeded
  split at succeeded
  · cases succeeded
  · have bounded : keys.toList.length ≤ 256 := by omega
    refine ⟨bounded, ((Outcome.mapM_eq_ok_iff _ _ _).mp succeeded).imp ?_⟩
    intro instruction one made
    simp only [compileOne, Outcome.bind_eq_ok_iff] at made
    obtain ⟨accounts, accountsPlaced, program, programPlaced, returned⟩ := made
    cases returned
    exact ⟨getElem?_of_place bounded programPlaced,
      ((Outcome.mapM_eq_ok_iff _ _ _).mp accountsPlaced).imp
        fun account index placed => getElem?_of_place bounded placed,
      rfl⟩

/-- A key that stands in the sequence is given a place. -/
theorem exists_place {keys : List Address} {key : Address} (member : key ∈ keys) :
    ∃ index, place keys key = .ok index := by
  cases found : keys.idxOf? key with
  | none => exact absurd member (List.idxOf?_eq_none_iff.mp found)
  | some index => exact ⟨UInt8.ofNat index, by rw [place, found]⟩

/-- More keys than a byte can tell apart are given no places. -/
theorem compile_of_crowded {keys : AccountKeys} {instructions : List Instruction}
    (crowded : 256 < keys.toList.length) :
    keys.compile instructions = .error .accountIndexOverflow := by
  rw [compile, if_pos crowded]

/-- Giving out places among few enough keys succeeds as long as every mentioned key is one of
them. -/
theorem exists_compile {keys : AccountKeys} {instructions : List Instruction}
    (bounded : keys.toList.length ≤ 256)
    (held : ∀ key ∈ Mentions.ofInstructions instructions, key ∈ keys.toList) :
    ∃ compiled, keys.compile instructions = .ok compiled := by
  rw [compile, if_neg (by omega), Outcome.exists_mapM_eq_ok_iff]
  intro instruction member
  have mentioned : ∀ key ∈ instruction.programId :: instruction.accounts.map AccountMeta.address,
      ∃ index, place keys.toList key = .ok index := fun key named =>
    exists_place (held key (List.mem_flatMap.mpr ⟨instruction, member, named⟩))
  obtain ⟨program, programPlaced⟩ := mentioned _ List.mem_cons_self
  obtain ⟨accounts, accountsPlaced⟩ := (Outcome.exists_mapM_eq_ok_iff
    (fun account : AccountMeta => place keys.toList account.address) instruction.accounts).mpr
    fun account named => mentioned _ (List.mem_cons_of_mem _ (List.mem_map_of_mem named))
  exact ⟨⟨program, accounts, instruction.data⟩, by
    simp only [compileOne, accountsPlaced, programPlaced]; rfl⟩

/-- The same instruction with the permissions of its accounts replaced by those of their keys. -/
def restate (signs writes : Address → Bool) (instruction : Instruction) : Instruction :=
  { instruction with
    accounts := instruction.accounts.map fun account =>
      { account with isSigner := signs account.address, isWritable := writes account.address } }

variable {keys : AccountKeys} {instructions : List Instruction}
  {compiled : List CompiledInstruction}

/-- Reading the places of a compiled instruction gives back the instruction it refers to, with the
permissions of the places. -/
theorem decompile_of_refers {instruction : Instruction} {one : CompiledInstruction}
    {isSigner isWritable : Nat → Bool} {signs writes : Address → Bool}
    (refers : Refers keys.toList instruction one)
    (permitted : ∀ index key, keys.toList[index]? = some key →
      isSigner index = signs key ∧ isWritable index = writes key) :
    one.decompile keys isSigner isWritable = .ok (restate signs writes instruction) := by
  have accounts : one.accounts.mapM (CompiledInstruction.account keys isSigner isWritable) =
      .ok (restate signs writes instruction).accounts := by
    rw [Outcome.mapM_eq_ok_iff, restate, List.forall₂_map_right_iff]
    refine refers.accounts.flip.imp ?_
    intro index account held
    obtain ⟨signs_eq, writes_eq⟩ := permitted index.toNat account.address held
    simp only [CompiledInstruction.account, get?_eq, held, signs_eq, writes_eq]
  simp only [CompiledInstruction.decompile, get?_eq, refers.program, accounts, restate,
    refers.data_eq]
  rfl

/-- Reading the places of all compiled instructions gives back the instructions. -/
theorem mapM_decompile {isSigner isWritable : Nat → Bool} {signs writes : Address → Bool}
    (refers : List.Forall₂ (Refers keys.toList) instructions compiled)
    (permitted : ∀ index key, keys.toList[index]? = some key →
      isSigner index = signs key ∧ isWritable index = writes key) :
    compiled.mapM (CompiledInstruction.decompile keys isSigner isWritable) =
      .ok (instructions.map (restate signs writes)) := by
  rw [Outcome.mapM_eq_ok_iff, List.forall₂_map_right_iff]
  exact refers.flip.imp fun one instruction made => decompile_of_refers made permitted

/-- Where no key has two places, the place of a key is a program's exactly when the key is run. -/
theorem any_programIdIndex_eq {sequence : List Address} {index : Nat} {key : Address}
    (unique : sequence.Nodup)
    (refers : List.Forall₂ (Refers sequence) instructions compiled)
    (found : sequence[index]? = some key) :
    (compiled.any fun one => one.programIdIndex.toNat == index) =
      Mentions.isProgram instructions key := by
  have inside : index < sequence.length := (List.getElem?_eq_some_iff.mp found).1
  unfold Mentions.isProgram
  induction refers with
  | nil => rfl
  | @cons instruction one instructions compiled made _ inductionHypothesis =>
    have same : one.programIdIndex.toNat = index ↔ instruction.programId = key := by
      rw [eq_comm, ← List.getElem?_inj inside unique, found, made.program, Option.some.injEq,
        eq_comm]
    rw [List.any_cons, List.any_cons, inductionHypothesis]
    congr 1
    rw [Bool.eq_iff_iff, beq_iff_eq, beq_iff_eq]
    exact same

end Transact.AccountKeys
