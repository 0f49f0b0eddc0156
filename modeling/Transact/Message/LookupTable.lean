import Transact.Message.Error

/-!
# Lookup tables

A lookup table is a list of addresses that is kept on the ledger under an address of its own. A
message can select entries of tables by their place, a byte each, in place of carrying 32-byte
keys. What a message selects is split into writable and readonly entries.
-/

namespace Transact

/-- A table of addresses. -/
structure LookupTable where
  /-- The table's own address. -/
  key : Address
  /-- Its entries in order. -/
  addresses : List Address
deriving DecidableEq

/-- A message's selection from one table. -/
structure TableLookup where
  /-- The table's own address. -/
  tableKey : Address
  /-- The places of the entries to load as writable. -/
  writableIndexes : Bytes
  /-- The places of the entries to load as readonly. -/
  readonlyIndexes : Bytes
deriving DecidableEq

/-- The addresses that selections resolve to. -/
structure LoadedAddresses where
  /-- Those loaded as writable. -/
  writable : List Address
  /-- Those loaded as readonly. -/
  readonly : List Address
deriving DecidableEq

namespace LoadedAddresses

/-- How many addresses were loaded. -/
def length (loaded : LoadedAddresses) : Nat := loaded.writable.length + loaded.readonly.length

/-- Whether nothing was loaded. -/
def isEmpty (loaded : LoadedAddresses) : Bool := loaded.length == 0

/-- Join several selections: all writable addresses in order, then all readonly ones in order. -/
def merge (list : List LoadedAddresses) : LoadedAddresses where
  writable := (list.map writable).flatten
  readonly := (list.map readonly).flatten

end LoadedAddresses

namespace TableLookup

/-- Whether the selection is empty. -/
def isEmpty (lookup : TableLookup) : Bool :=
  lookup.writableIndexes.isEmpty && lookup.readonlyIndexes.isEmpty

/-- How many entries are selected. -/
def selected (lookup : TableLookup) : Nat :=
  lookup.writableIndexes.length + lookup.readonlyIndexes.length

/-- The entry of a table at a place. -/
def entry (table : LookupTable) (index : UInt8) : Except MessageError Address :=
  match table.addresses[index.toNat]? with
  | some address => .ok address
  | none => .error (.addressNotInLookupTable table.key index)

/-- The entry at a place is what stands there in the table. -/
theorem entry_eq_ok_iff {table : LookupTable} {index : UInt8} {address : Address} :
    entry table index = .ok address ↔ table.addresses[index.toNat]? = some address := by
  unfold entry
  cases table.addresses[index.toNat]? with
  | none => simp
  | some held => simp

/-- Resolve one selection against the first supplied table with its key. -/
def load (tables : List LookupTable) (lookup : TableLookup) :
    Except MessageError LoadedAddresses :=
  match tables.find? fun table => table.key == lookup.tableKey with
  | none => .error (.lookupTableNotProvided lookup.tableKey)
  | some table => do
    let writable ← lookup.writableIndexes.mapM (entry table)
    let readonly ← lookup.readonlyIndexes.mapM (entry table)
    return { writable, readonly }

/-- Resolve selections in order and join what they load. -/
def loadAll (tables : List LookupTable) (lookups : List TableLookup) :
    Except MessageError LoadedAddresses := do
  let loaded ← lookups.mapM (load tables)
  return LoadedAddresses.merge loaded

end TableLookup

end Transact
