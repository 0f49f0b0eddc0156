import Transact.Instruction
import Transact.Message.AccountKeys

/-!
# Compiled instructions

In a message an instruction refers to keys by their place, one byte each. Before a message is used
its places are checked against the number of its keys.

Decompiling is the reverse of compilation: places become keys again. The permissions of an account
are those of its place, so an account that several instructions refer to reports in each of them
what any of them asked for.
-/

namespace Transact

/-- An instruction that refers to the keys of its message by place. -/
structure CompiledInstruction where
  /-- The place of the program. -/
  programIdIndex : UInt8
  /-- The places of the accounts, in the order the program expects. -/
  accounts : Bytes
  /-- The program's own input. -/
  data : Bytes
deriving DecidableEq

namespace CompiledInstruction

/-- The program among a list of keys, if its place is within the list. -/
def programId? (instruction : CompiledInstruction) (keys : List Address) : Option Address :=
  keys[instruction.programIdIndex.toNat]?

/-- Check the places of one instruction: the program is one of the first `programs` keys and not
the payer, and every account is one of the first `accounts` keys. -/
def sanitize (instruction : CompiledInstruction) (programs accounts : Nat) :
    Except MessageError Unit :=
  let program := instruction.programIdIndex.toNat
  if program = 0 ∨ program ≥ programs then .error .invalidProgramIdIndex
  else if instruction.accounts.any fun index => decide (index.toNat ≥ accounts) then
    .error .invalidInstructionAccountIndex
  else .ok ()

/-- Check the places of every instruction, first instruction first. -/
def sanitizeAll (programs accounts : Nat) : List CompiledInstruction → Except MessageError Unit
  | [] => .ok ()
  | instruction :: rest =>
    match instruction.sanitize programs accounts with
    | .error fault => .error fault
    | .ok () => sanitizeAll programs accounts rest

/-- The account at a place, with the permissions of the place. -/
def account (keys : AccountKeys) (isSigner isWritable : Nat → Bool) (index : UInt8) :
    Except MessageError AccountMeta :=
  match keys.get? index.toNat with
  | none => .error .invalidInstructionAccountIndex
  | some address =>
    .ok { address, isSigner := isSigner index.toNat, isWritable := isWritable index.toNat }

/-- The instruction that a compiled one stands for. The program is looked up before the accounts. -/
def decompile (keys : AccountKeys) (isSigner isWritable : Nat → Bool)
    (instruction : CompiledInstruction) : Except MessageError Instruction :=
  match keys.get? instruction.programIdIndex.toNat with
  | none => .error .invalidProgramIdIndex
  | some programId => do
    let accounts ← instruction.accounts.mapM (account keys isSigner isWritable)
    return { programId, accounts, data := instruction.data }

end CompiledInstruction

end Transact
