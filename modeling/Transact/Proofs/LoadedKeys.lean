import Transact.Proofs.Compilation

/-!
# Loaded keys and their places

A place behind the carried keys of a message is accounted for three times. The check of the message
counts the places of the lookups, permissions count those that are writable, and whoever resolves
the place walks through the keys that were loaded. All three agree: the entries that lookups name
are loaded one for one, in the order of the lookups, with all writable entries before the readonly
ones (`V0Message.Aligned`).

Where an entry cannot be loaded, the first lookup at fault decides what is reported
(`TableLookup.fault?`). The main statement is `V0Message.loading_exact`, for messages that need not
have been checked.
-/

namespace Transact

/-- The name of an entry of a lookup table. -/
structure EntryName where
  /-- The address of the table. -/
  tableKey : Address
  /-- The place of the entry in the table. -/
  index : UInt8
deriving DecidableEq

/-- An address bears a name among some tables if it stands in the place in the first table with that
key. -/
def EntryName.Denotes (tables : List LookupTable) (name : EntryName) (address : Address) : Prop :=
  ∃ table, tables.find? (fun table => table.key == name.tableKey) = some table ∧
    table.addresses[name.index.toNat]? = some address

namespace TableLookup

/-- The entries that a lookup names as writable, in order. -/
def writableNames (lookup : TableLookup) : List EntryName :=
  lookup.writableIndexes.map (EntryName.mk lookup.tableKey)

/-- The entries that a lookup names as readonly, in order. -/
def readonlyNames (lookup : TableLookup) : List EntryName :=
  lookup.readonlyIndexes.map (EntryName.mk lookup.tableKey)

/-- What is wrong with a lookup, if anything is: no table has its key, or else the first table with
it ends before one of its places. Of these places the first is reported, the writable ones before
the readonly ones. -/
def fault? (tables : List LookupTable) (lookup : TableLookup) : Option MessageError :=
  match tables.find? fun table => table.key == lookup.tableKey with
  | none => some (.lookupTableNotProvided lookup.tableKey)
  | some table =>
    ((lookup.writableIndexes ++ lookup.readonlyIndexes).find? fun index =>
      decide (table.addresses.length ≤ index.toNat)).map (.addressNotInLookupTable lookup.tableKey)

variable {tables : List LookupTable} {lookup : TableLookup} {lookups : List TableLookup}

/-- A table is found for a key exactly when one of the tables has it. -/
theorem find?_table_eq_none_iff (tables : List LookupTable) (key : Address) :
    tables.find? (fun table => table.key == key) = none ↔ ∀ table ∈ tables, table.key ≠ key := by
  simp

/-- A lookup has a fault exactly when its table is missing or lacks one of its places. -/
theorem exists_fault?_iff (tables : List LookupTable) (lookup : TableLookup) :
    (∃ fault, fault? tables lookup = some fault) ↔
      (∀ table ∈ tables, table.key ≠ lookup.tableKey) ∨
        ∃ table, tables.find? (fun table => table.key == lookup.tableKey) = some table ∧
          ∃ index ∈ lookup.writableIndexes ++ lookup.readonlyIndexes,
            table.addresses.length ≤ index.toNat := by
  rw [← find?_table_eq_none_iff, ← Option.isSome_iff_exists, fault?]
  cases tables.find? fun table => table.key == lookup.tableKey with
  | none => simp
  | some table => simp only [Option.isSome_map, List.find?_isSome, decide_eq_true_iff,
      reduceCtorEq, Option.some.injEq, exists_eq_left', false_or]

/-- Entries of a table fail to be loaded at the first place that the table does not hold. -/
theorem fault?_mapM_entry (table : LookupTable) (indexes : Bytes) :
    Outcome.fault? (indexes.mapM (entry table)) =
      (indexes.find? fun index => decide (table.addresses.length ≤ index.toNat)).map
        (.addressNotInLookupTable table.key) := by
  rw [Outcome.fault?_mapM, ← List.findSome?_guard, List.map_findSome?]
  congr 1
  funext index
  by_cases outside : table.addresses.length ≤ index.toNat
  · simp [entry, outside, Outcome.fault?, Option.guard]
  · have inside := List.getElem?_eq_getElem (Nat.lt_of_not_le outside)
    simp [entry, outside, Outcome.fault?, inside, Option.guard]

/-- Loading fails with what is wrong with the lookup. -/
theorem fault?_load (tables : List LookupTable) (lookup : TableLookup) :
    Outcome.fault? (load tables lookup) = fault? tables lookup := by
  unfold load fault?
  cases found : tables.find? fun table => table.key == lookup.tableKey with
  | none => rfl
  | some table =>
    have sameKey : table.key = lookup.tableKey := by simpa using List.find?_some found
    dsimp only
    rw [List.find?_append, Option.map_or, ← sameKey, ← fault?_mapM_entry, ← fault?_mapM_entry]
    refine Outcome.fault?_bind _ fun writable => ?_
    rw [Outcome.fault?_bind none fun _ => rfl, Option.or_none]

/-- Loading all of some lookups fails with what is wrong with the first that has a fault. -/
theorem loadAll_eq_error_iff (tables : List LookupTable) (lookups : List TableLookup)
    (fault : MessageError) :
    loadAll tables lookups = .error fault ↔ lookups.findSome? (fault? tables) = some fault := by
  rw [← Outcome.fault?_eq_some_iff, loadAll, Outcome.fault?_bind none fun _ => rfl,
    Option.or_none, Outcome.fault?_mapM, funext (fault?_load tables)]

/-- What a lookup loads are the addresses of the entries that it names. -/
theorem denotes_of_load {loaded : LoadedAddresses} (resolved : load tables lookup = .ok loaded) :
    List.Forall₂ (EntryName.Denotes tables) lookup.writableNames loaded.writable ∧
      List.Forall₂ (EntryName.Denotes tables) lookup.readonlyNames loaded.readonly := by
  unfold load at resolved
  split at resolved
  · cases resolved
  · rename_i table found
    simp only [Outcome.bind_eq_ok_iff, Outcome.mapM_eq_ok_iff] at resolved
    obtain ⟨writable, writableLoaded, readonly, readonlyLoaded, returned⟩ := resolved
    cases returned
    rw [writableNames, readonlyNames, List.forall₂_map_left_iff, List.forall₂_map_left_iff]
    exact ⟨writableLoaded.imp fun index address held => ⟨table, found, entry_eq_ok_iff.mp held⟩,
      readonlyLoaded.imp fun index address held => ⟨table, found, entry_eq_ok_iff.mp held⟩⟩

/-- What lookups load together are the addresses of the entries that they name, in their order. -/
theorem denotes_of_loadAll {loaded : LoadedAddresses}
    (resolved : loadAll tables lookups = .ok loaded) :
    List.Forall₂ (EntryName.Denotes tables) (lookups.flatMap writableNames) loaded.writable ∧
      List.Forall₂ (EntryName.Denotes tables) (lookups.flatMap readonlyNames) loaded.readonly := by
  obtain ⟨parts, partsLoaded, returned⟩ := (Outcome.bind_eq_ok_iff _ _ _).mp resolved
  cases returned
  have each := (Outcome.mapM_eq_ok_iff _ _ _).mp partsLoaded
  rw [List.flatMap_def, List.flatMap_def, LoadedAddresses.merge]
  constructor
  · apply List.rel_flatten
    rw [List.forall₂_map_left_iff, List.forall₂_map_right_iff]
    exact each.imp fun _ _ loads => (denotes_of_load loads).1
  · apply List.rel_flatten
    rw [List.forall₂_map_left_iff, List.forall₂_map_right_iff]
    exact each.imp fun _ _ loads => (denotes_of_load loads).2

end TableLookup

namespace V0Message

/-- The entries that the lookups of a message name as writable, in order. -/
def writableNames (message : V0Message) : List EntryName :=
  message.addressTableLookups.flatMap TableLookup.writableNames

/-- The entries that the lookups of a message name as readonly, in order. -/
def readonlyNames (message : V0Message) : List EntryName :=
  message.addressTableLookups.flatMap TableLookup.readonlyNames

/-- The keys that a message carries with those that were loaded for it. -/
def keysWith (message : V0Message) (loaded : LoadedAddresses) : AccountKeys :=
  ⟨message.accountKeys, some loaded⟩

/-- Loaded keys stand in the places that the message counts for them. -/
structure Aligned (message : V0Message) (tables : List LookupTable) (loaded : LoadedAddresses) :
    Prop where
  /-- There are keys in exactly the places below the number that the check of the message counts. -/
  isSome_get?_iff : ∀ index, ((message.keysWith loaded).get? index).isSome = true ↔
    index < message.accountKeys.length + message.numLoaded
  /-- The entries named as writable are loaded as writable, one beside the other. -/
  writable_denoted : List.Forall₂ (EntryName.Denotes tables) message.writableNames loaded.writable
  /-- The entries named as readonly are loaded as readonly, one beside the other. -/
  readonly_denoted : List.Forall₂ (EntryName.Denotes tables) message.readonlyNames loaded.readonly
  /-- Behind the carried keys, the writable places are those of the keys loaded as writable, each of
  which is the entry named at the same distance from the carried keys. -/
  isWritableIndex_iff : ∀ index, message.accountKeys.length ≤ index →
    (message.isWritableIndex index = true ↔ ∃ name key,
      message.writableNames[index - message.accountKeys.length]? = some name ∧
      name.Denotes tables key ∧
      loaded.writable[index - message.accountKeys.length]? = some key ∧
      (message.keysWith loaded).get? index = some key)
  /-- A key behind the carried ones that is not writable is loaded as readonly, and it is the entry
  named at the same distance from the writable ones. -/
  readonly_of_get? : ∀ index key, message.accountKeys.length ≤ index →
    message.isWritableIndex index = false → (message.keysWith loaded).get? index = some key →
    ∃ name,
      message.readonlyNames[index - message.accountKeys.length - message.numLoadedWritable]? =
        some name ∧
      name.Denotes tables key ∧
      loaded.readonly[index - message.accountKeys.length - message.numLoadedWritable]? = some key

variable {message : V0Message} {tables : List LookupTable} {loaded : LoadedAddresses}

/-- Behind the carried keys come the loaded ones, the writable before the readonly. -/
theorem get?_keysWith_of_le {index : Nat} (behind : message.accountKeys.length ≤ index) :
    (message.keysWith loaded).get? index =
      (loaded.writable ++ loaded.readonly)[index - message.accountKeys.length]? := by
  rw [keysWith, AccountKeys.get?_eq, AccountKeys.toList_some, List.append_assoc,
    List.getElem?_append_right behind]

/-- A place behind the carried keys is writable when its distance from them is less than the number
of places that the lookups have for writable keys. -/
theorem isWritableIndex_iff_of_le {index : Nat} (behind : message.accountKeys.length ≤ index) :
    message.isWritableIndex index = true ↔
      index - message.accountKeys.length < message.numLoadedWritable := by
  rw [isWritableIndex, isWritablePlace, if_pos behind, decide_eq_true_iff]

/-- What is loaded for a message stands in the places that it counts. -/
theorem aligned_of_loadAddresses (resolved : message.loadAddresses tables = .ok loaded) :
    message.Aligned tables loaded := by
  have writableCount := numLoadedWritable_eq resolved
  have count := numLoaded_eq resolved
  obtain ⟨writableDenoted, readonlyDenoted⟩ := TableLookup.denotes_of_loadAll resolved
  refine ⟨fun index => ?_, writableDenoted, readonlyDenoted, fun index behind => ?_,
    fun index key behind unwritable found => ?_⟩
  · rw [keysWith, AccountKeys.get?_eq, AccountKeys.toList_some, List.append_assoc, count,
      LoadedAddresses.length, ← List.length_append, ← List.length_append, isSome_getElem?]
  · rw [isWritableIndex_iff_of_le behind, get?_keysWith_of_le behind, writableCount]
    constructor
    · intro inside
      have held := List.getElem?_eq_getElem inside
      obtain ⟨name, named, denotes⟩ := exists_related_of_getElem? writableDenoted.flip held
      exact ⟨name, _, named, denotes, held, (List.getElem?_append_left inside).trans held⟩
    · rintro ⟨_, _, _, _, held, _⟩
      exact (List.getElem?_eq_some_iff.mp held).1
  · rw [← Bool.not_eq_true, isWritableIndex_iff_of_le behind, writableCount, Nat.not_lt]
      at unwritable
    rw [get?_keysWith_of_le behind, List.getElem?_append_right unwritable] at found
    obtain ⟨name, named, denotes⟩ := exists_related_of_getElem? readonlyDenoted.flip found
    rw [writableCount]
    exact ⟨name, named, denotes, found⟩

/-- Loading is exact, also for a message that was not checked. It fails exactly where a lookup names
a table that is not there, or a place that the first table with its key does not have, and the first
lookup of this kind is reported. What is loaded otherwise stands in the places that the message
counts for it. -/
theorem loading_exact (message : V0Message) (tables : List LookupTable) :
    ((∃ fault, message.loadAddresses tables = .error fault) ↔
      ∃ lookup ∈ message.addressTableLookups,
        (∀ table ∈ tables, table.key ≠ lookup.tableKey) ∨
          ∃ table, tables.find? (fun table => table.key == lookup.tableKey) = some table ∧
            ∃ index ∈ lookup.writableIndexes ++ lookup.readonlyIndexes,
              table.addresses.length ≤ index.toNat) ∧
    (∀ fault, message.loadAddresses tables = .error fault ↔
      message.addressTableLookups.findSome? (TableLookup.fault? tables) = some fault) ∧
    ∀ loaded, message.loadAddresses tables = .ok loaded → message.Aligned tables loaded := by
  have reported := TableLookup.loadAll_eq_error_iff tables message.addressTableLookups
  refine ⟨?_, reported, fun _ => aligned_of_loadAddresses⟩
  simp only [loadAddresses, reported, ← TableLookup.exists_fault?_iff, ← Option.isSome_iff_exists,
    List.findSome?_isSome_iff]

/-- A message whose header asks for more signers than it has keys. Of its lookups two are for the
same table and one selects nothing. -/
def sampleLoading : V0Message where
  header := ⟨9, 0, 0⟩
  accountKeys := [.numbered 1, .numbered 2]
  recentBlockhash := Hash.zero
  instructions := []
  addressTableLookups :=
    [⟨.numbered 5, [2], [0]⟩, ⟨.numbered 6, [], []⟩, ⟨.numbered 5, [0, 0], [1]⟩]

/-- Two tables under one key, of which the second is empty, and a third one. -/
def sampleSuppliedTables : List LookupTable :=
  [⟨.numbered 5, [.numbered 51, .numbered 52, .numbered 53]⟩, ⟨.numbered 5, []⟩, ⟨.numbered 6, []⟩]

/-- What the sample loads from the first of the tables. -/
def sampleLoaded : LoadedAddresses :=
  ⟨[.numbered 53, .numbered 51, .numbered 51], [.numbered 51, .numbered 52]⟩

/-- The sample loads what the first table holds, in the places that it counts. Without that table
its first writable place is reported, and without any table under the key, the key. -/
theorem loading_exact_sample :
    sampleLoading.loadAddresses sampleSuppliedTables = .ok sampleLoaded ∧
    sampleLoading.Aligned sampleSuppliedTables sampleLoaded ∧
    sampleLoading.loadAddresses (sampleSuppliedTables.drop 1) =
      .error (.addressNotInLookupTable (.numbered 5) 2) ∧
    sampleLoading.loadAddresses (sampleSuppliedTables.drop 2) =
      .error (.lookupTableNotProvided (.numbered 5)) := by
  have resolved : sampleLoading.loadAddresses sampleSuppliedTables = .ok sampleLoaded := by decide
  have aligned := (loading_exact sampleLoading sampleSuppliedTables).2.2 _ resolved
  have notInTable := (loading_exact sampleLoading (sampleSuppliedTables.drop 1)).2.1
  have notProvided := (loading_exact sampleLoading (sampleSuppliedTables.drop 2)).2.1
  exact ⟨resolved, aligned, (notInTable _).mpr (by decide), (notProvided _).mpr (by decide)⟩

end V0Message

end Transact
