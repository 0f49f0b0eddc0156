import Std.Data.TreeMap
import Transact.Compile.KeyTable

/-!
# The register of keys

A table of keys can be kept in two containers: the keys in the order of first mention, and beside
them a map in which everything that is asked of a key is looked up. Every step then has to change
both. A key that is met for the first time is put into both; a key that a lookup table supplies is
removed from the map first, and then only what the map still holds is retained in the order.

Here a lookup table is not walked. Instead each wanted key, in the order of the register, is looked
for in the lookup table, and what was found is sorted by place.
-/

namespace Transact

/-- The keys that instructions refer to, with their demands in a map of their own. -/
structure KeyRegister where
  /-- Who pays, if somebody does. -/
  payer : Option Address
  /-- The keys, in the order of their first mention. -/
  orderedKeys : List Address
  /-- What is asked of each key. -/
  uses : Std.TreeMap Address KeyUse

namespace KeyRegister

/-- Ask something of a key, which is new if the map does not hold it. -/
def demand (register : KeyRegister) (key : Address) (use : KeyUse) : KeyRegister :=
  match register.uses[key]? with
  | some known => { register with uses := register.uses.insert key (known.merge use) }
  | none => { register with
      orderedKeys := register.orderedKeys ++ [key]
      uses := register.uses.insert key use }

/-- Ask for several keys, one after the other. -/
def demandAll (register : KeyRegister) (mentioned : List (Address × KeyUse)) : KeyRegister :=
  mentioned.foldl (fun register (key, use) => register.demand key use) register

/-- Collect the keys of instructions, and the payer last of all. -/
def ofInstructions (payer : Option Address) (instructions : List Instruction) : KeyRegister :=
  let payer := KeyTable.effectivePayer payer
  let mentioned := instructions.flatMap KeyTable.references ++
    payer.toList.map fun key => (key, KeyUse.paying)
  demandAll ⟨payer, [], ∅⟩ mentioned

/-- The keys other than the payer of which a certain use is made, in order. -/
def select (register : KeyRegister) (wanted : KeyUse → Bool) : List Address :=
  register.orderedKeys.filter fun key =>
    register.payer != some key && register.uses[key]?.any wanted

/-- The keys of a certain use that a lookup table holds, each with its first place there. -/
def found (register : KeyRegister) (addresses : List Address) (wanted : KeyUse → Bool) :
    List (Nat × Address) :=
  (register.select wanted).filterMap fun key =>
    (addresses.idxOf? key).map fun place => (place, key)

/-- Remove keys from the map and retain, in order, what is left in it. -/
def remove (register : KeyRegister) (taken : List Address) : KeyRegister :=
  let uses := taken.foldl (fun uses key => uses.erase key) register.uses
  { register with
    orderedKeys := register.orderedKeys.filter fun key => uses.contains key
    uses }

/-- Write the place of a key as a byte. -/
def indexed (entry : Nat × Address) : Except CompileError (UInt8 × Address) := do
  let index ← KeyTable.indexByte entry.1
  return (index, entry.2)

/-- Take out the keys of a certain use that a lookup table supplies, sorted by their places. -/
def drain (register : KeyRegister) (addresses : List Address) (wanted : KeyUse → Bool) :
    Except CompileError (Bytes × List Address × KeyRegister) := do
  let found ← (register.found addresses wanted).mapM indexed
  let sorted := found.mergeSort fun first second => decide (first.1 ≤ second.1)
  let taken := sorted.map Prod.snd
  return (sorted.map Prod.fst, taken, register.remove taken)

/-- Take out what a lookup table supplies, writable keys first. -/
def extract (register : KeyRegister) (source : LookupTable) :
    Except CompileError (Option (TableLookup × LoadedAddresses) × KeyRegister) := do
  let (writableIndexes, writable, register) ←
    register.drain source.addresses fun use => use.isLoadable && use.isWritable
  let (readonlyIndexes, readonly, register) ←
    register.drain source.addresses fun use => use.isLoadable && !use.isWritable
  let lookup : TableLookup := { tableKey := source.key, writableIndexes, readonlyIndexes }
  if lookup.isEmpty then return (none, register)
  else return (some (lookup, { writable, readonly }), register)

/-- Take out what each of several lookup tables supplies, in the order given. -/
def extractAll (register : KeyRegister) :
    List LookupTable → Except CompileError (List (TableLookup × LoadedAddresses) × KeyRegister)
  | [] => .ok ([], register)
  | source :: rest => do
    let (selection, register) ← register.extract source
    let (selections, register) ← register.extractAll rest
    return (selection.toList ++ selections, register)

end KeyRegister

end Transact
