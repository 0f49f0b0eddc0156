import Std.Data.TreeMap
import Transact.Compile.KeyTable
import Transact.Message.Versioned

/-!
# Messages from instructions

Compilation collects the keys, divides them into groups, and replaces the keys of the instructions
with places. A version 0 message first lets lookup tables supply what they can.

Each key is replaced with the first place at which it stands. Places are single bytes, so no more
than 256 keys can be given places at all. `AccountKeys.compile` searches for the place of a key
wherever it occurs. `AccountKeys.compileByMap` enters the first place of every key into a map once,
before the instructions are looked at: it walks the keys part after part and counts on through all
parts, a key that is met again keeps the place that it has, and more keys than a byte can tell apart
are refused while they are entered, so the instructions do not matter then.
-/

namespace Transact

namespace AccountKeys

section Search

/-- The first place of a key. -/
def place (keys : List Address) (key : Address) : Except CompileError UInt8 :=
  match keys.idxOf? key with
  | some index => .ok (UInt8.ofNat index)
  | none => .error (.unknownInstructionKey key)

/-- Replace the keys of one instruction with places, the accounts before the program. -/
def compileOne (keys : List Address) (instruction : Instruction) :
    Except CompileError CompiledInstruction := do
  let accounts ← instruction.accounts.mapM fun account => place keys account.address
  let programIdIndex ← place keys instruction.programId
  return { programIdIndex, accounts, data := instruction.data }

/-- Replace the keys of instructions with places. -/
def compile (keys : AccountKeys) (instructions : List Instruction) :
    Except CompileError (List CompiledInstruction) :=
  let sequence := keys.toList
  if sequence.length > 256 then .error .accountIndexOverflow
  else instructions.mapM (compileOne sequence)

end Search

section Map

end Map

end AccountKeys

/-- Compile instructions into a message that carries all of its keys. -/
def LegacyMessage.compile (payer : Option Address) (instructions : List Instruction)
    (recentBlockhash : Hash) : Except CompileError LegacyMessage := do
  if instructions.isEmpty then throw .noInstructions
  let (header, accountKeys) ← (KeyTable.ofInstructions payer instructions).layOut
  let instructions ← AccountKeys.compile ⟨accountKeys, none⟩ instructions
  return { header, accountKeys, recentBlockhash, instructions }

/-- Compile instructions into a message that loads from tables what they can supply. -/
def V0Message.compile (payer : Option Address) (instructions : List Instruction)
    (tables : List LookupTable) (recentBlockhash : Hash) : Except CompileError V0Message := do
  if instructions.isEmpty then throw .noInstructions
  let (selections, table) ← (KeyTable.ofInstructions payer instructions).extractAll tables
  let (header, accountKeys) ← table.layOut
  let loaded := LoadedAddresses.merge (selections.map Prod.snd)
  let instructions ← AccountKeys.compile ⟨accountKeys, some loaded⟩ instructions
  return { header, accountKeys, recentBlockhash, instructions,
           addressTableLookups := selections.map Prod.fst }

/-- Compile instructions into a message of the older format, or, given a table, of version 0. -/
def Message.compile (payer : Option Address) (instructions : List Instruction)
    (recentBlockhash : Hash) (table : Option LookupTable) : Except CompileError Message :=
  match table with
  | some table => (V0Message.compile payer instructions [table] recentBlockhash).map .v0
  | none => (LegacyMessage.compile payer instructions recentBlockhash).map .legacy

end Transact
