import Transact.Instruction
import Transact.Message.Header
import Transact.Message.LookupTable

/-!
# The table of keys

Before places can be given out, every key that some instructions refer to is collected once, with
everything that any reference asks of it. Keys stay in the order in which they are first met: of
each instruction the program, then the accounts.

From the table come the keys that a message carries, group by group, and, before that, the keys
that lookup tables can supply in their stead. Signers and programs are never supplied by a table,
and neither is the payer.
-/

namespace Transact

/-- Why instructions cannot be compiled into a message. -/
inductive CompileError where
  /-- There is nothing to run. -/
  | noInstructions
  /-- A place or a count of keys does not fit in a byte. -/
  | accountIndexOverflow
  /-- A place in a lookup table does not fit in a byte. -/
  | addressTableLookupIndexOverflow
  /-- An instruction refers to a key that is not among the message's. -/
  | unknownInstructionKey (key : Address)
deriving DecidableEq

/-- The report of each fault. -/
def CompileError.report [Base58.Converter 32 44] : CompileError → String
  | .noInstructions => "message has no instructions"
  | .accountIndexOverflow => "account index overflowed during compilation"
  | .addressTableLookupIndexOverflow => "address lookup table index overflowed during compilation"
  | .unknownInstructionKey key =>
    s!"encountered unknown account key `{key}` during instruction compilation"

/-- What the references to a key ask of it, taken together. -/
structure KeyUse where
  /-- Some reference needs its signature. -/
  isSigner : Bool
  /-- Some reference may change it. -/
  isWritable : Bool
  /-- Some instruction runs it. -/
  isInvoked : Bool
deriving DecidableEq

namespace KeyUse

/-- Take both of two demands together. -/
def merge (first second : KeyUse) : KeyUse where
  isSigner := first.isSigner || second.isSigner
  isWritable := first.isWritable || second.isWritable
  isInvoked := first.isInvoked || second.isInvoked

/-- What running a key asks of it. -/
def invoked : KeyUse := ⟨false, false, true⟩

/-- What paying asks of a key. -/
def paying : KeyUse := ⟨true, true, false⟩

/-- What an instruction's account asks of it. -/
def ofMeta (account : AccountMeta) : KeyUse := ⟨account.isSigner, account.isWritable, false⟩

/-- Whether a lookup table may supply the key. -/
def isLoadable (use : KeyUse) : Bool := !use.isSigner && !use.isInvoked

end KeyUse

/-- The keys that instructions refer to, in the order of their first mention. -/
structure KeyTable where
  /-- Who pays, if somebody does. The zero address is nobody. -/
  payer : Option Address
  /-- Each key once, with what is asked of it. -/
  entries : List (Address × KeyUse)
deriving DecidableEq

namespace KeyTable

/-- Ask something of a key. A key that is not in the list yet goes to its end. -/
def demand (key : Address) (use : KeyUse) : List (Address × KeyUse) → List (Address × KeyUse)
  | [] => [(key, use)]
  | (other, known) :: rest =>
    if other = key then (other, known.merge use) :: rest
    else (other, known) :: demand key use rest

/-- The keys that one instruction refers to, each with what it asks of it. -/
def references (instruction : Instruction) : List (Address × KeyUse) :=
  (instruction.programId, KeyUse.invoked) ::
    instruction.accounts.map fun account => (account.address, KeyUse.ofMeta account)

/-- The payer, unless it is the zero address. -/
def effectivePayer (payer : Option Address) : Option Address := payer.filter fun key => !key.isZero

/-- Collect the keys of instructions. The payer comes last of all, so that it takes a place in the
order only where no instruction refers to it. -/
def ofInstructions (payer : Option Address) (instructions : List Instruction) : KeyTable :=
  let payer := effectivePayer payer
  let mentioned := instructions.flatMap references ++
    payer.toList.map fun key => (key, KeyUse.paying)
  { payer,
    entries := mentioned.foldl (fun entries (key, use) => demand key use entries) [] }

/-- The keys, in order. -/
def keys (table : KeyTable) : List Address := table.entries.map Prod.fst

/-- The keys other than the payer of which a certain use is made, in order. -/
def select (table : KeyTable) (wanted : KeyUse → Bool) : List Address :=
  (table.entries.filter fun (key, use) => table.payer != some key && wanted use).map Prod.fst

/-- The group of writable signers, which the payer heads. -/
def writableSigners (table : KeyTable) : List Address :=
  table.payer.toList ++ table.select fun use => use.isSigner && use.isWritable

/-- The group of readonly signers. -/
def readonlySigners (table : KeyTable) : List Address :=
  table.select fun use => use.isSigner && !use.isWritable

/-- The group of writable keys that do not sign. -/
def writableOthers (table : KeyTable) : List Address :=
  table.select fun use => !use.isSigner && use.isWritable

/-- The group of readonly keys that do not sign. -/
def readonlyOthers (table : KeyTable) : List Address :=
  table.select fun use => !use.isSigner && !use.isWritable

/-- A count as one byte. -/
def countByte (count : Nat) : Except CompileError UInt8 :=
  if count ≤ 255 then .ok (UInt8.ofNat count) else .error .accountIndexOverflow

/-- The keys in the order of their groups, and the header that tells the groups apart. -/
def layOut (table : KeyTable) : Except CompileError (MessageHeader × List Address) := do
  let writableSigners := table.writableSigners
  let readonlySigners := table.readonlySigners
  let writableOthers := table.writableOthers
  let readonlyOthers := table.readonlyOthers
  let numRequiredSignatures ← countByte (writableSigners.length + readonlySigners.length)
  let numReadonlySignedAccounts ← countByte readonlySigners.length
  let numReadonlyUnsignedAccounts ← countByte readonlyOthers.length
  return ({ numRequiredSignatures, numReadonlySignedAccounts, numReadonlyUnsignedAccounts },
    writableSigners ++ readonlySigners ++ writableOthers ++ readonlyOthers)

/-- Walk a lookup table from a place on and note where the wanted keys stand. A key is noted at its
first place only, so the places come out in ascending order without repeats. -/
def positions (position : Nat) : (wanted : List Address) → (addresses : List Address) →
    List (Nat × Address)
  | _, [] => []
  | wanted, address :: rest =>
    if wanted.contains address then
      (position, address) :: positions (position + 1) (wanted.erase address) rest
    else positions (position + 1) wanted rest

/-- A place in a lookup table as one byte. -/
def indexByte (position : Nat) : Except CompileError UInt8 :=
  if position ≤ 255 then .ok (UInt8.ofNat position) else .error .addressTableLookupIndexOverflow

/-- Without certain keys. -/
def without (table : KeyTable) (taken : List Address) : KeyTable :=
  { table with entries := table.entries.filter fun (key, _) => !taken.contains key }

/-- Take out the keys of a certain use that a lookup table supplies. The answer has their places in
the table, the keys in the same order, and what is left. -/
def drain (table : KeyTable) (addresses : List Address) (wanted : KeyUse → Bool) :
    Except CompileError (Bytes × List Address × KeyTable) := do
  let found := positions 0 (table.select wanted) addresses
  let indexes ← found.mapM fun (position, _) => indexByte position
  let taken := found.map Prod.snd
  return (indexes, taken, table.without taken)

/-- Take out what a lookup table supplies, writable keys first. There is no selection where the
table supplies nothing. -/
def extract (table : KeyTable) (source : LookupTable) :
    Except CompileError (Option (TableLookup × LoadedAddresses) × KeyTable) := do
  let (writableIndexes, writable, table) ←
    table.drain source.addresses fun use => use.isLoadable && use.isWritable
  let (readonlyIndexes, readonly, table) ←
    table.drain source.addresses fun use => use.isLoadable && !use.isWritable
  let lookup : TableLookup := { tableKey := source.key, writableIndexes, readonlyIndexes }
  if lookup.isEmpty then return (none, table)
  else return (some (lookup, { writable, readonly }), table)

/-- Take out what each of several lookup tables supplies, in the order given: a key comes from the
first of them that holds it. -/
def extractAll (table : KeyTable) :
    List LookupTable → Except CompileError (List (TableLookup × LoadedAddresses) × KeyTable)
  | [] => .ok ([], table)
  | source :: rest => do
    let (selection, table) ← table.extract source
    let (selections, table) ← table.extractAll rest
    return (selection.toList ++ selections, table)

end KeyTable

end Transact
