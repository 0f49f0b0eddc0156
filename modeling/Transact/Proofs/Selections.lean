import Transact.Proofs.Compilation

/-!
# Which keys lookup tables supply

A key that neither signs nor is run comes from the first lookup table that holds it, if any does
(`LookupTable.firstHolder?`), and from its first place there. Extraction goes through the tables one
by one and takes keys out in two goes per table; the laws here say what it comes to in the end. Each
step is exact: it takes every key that the table of keys offers and the lookup table holds
(`KeyTable.exact_of_extract`), and leaves the rest on offer to the tables that follow.

The main statement, `V0Message.selects_of_compile`, is that the lookups of a compiled message select
exactly the keys that may be loaded and are held by some table, each once.
-/

namespace Transact

/-- A lookup picks certain keys from a table, some to be writable and the others readonly, when it
names the table, is not empty, and its places are the first places of these keys, in ascending order
and none in both groups. -/
structure TableLookup.Picks (lookup : TableLookup) (source : LookupTable)
    (writable readonly : Address → Prop) : Prop where
  /-- It names the table. -/
  tableKey_eq : lookup.tableKey = source.key
  /-- It selects something. -/
  isEmpty_eq : lookup.isEmpty = false
  /-- The writable places ascend. -/
  writable_ascending : lookup.writableIndexes.Pairwise (· < ·)
  /-- The readonly places ascend. -/
  readonly_ascending : lookup.readonlyIndexes.Pairwise (· < ·)
  /-- No place is in both groups. -/
  disjoint : List.Disjoint lookup.writableIndexes lookup.readonlyIndexes
  /-- The writable places are the first places of the writable keys. -/
  mem_writableIndexes_iff : ∀ index, index ∈ lookup.writableIndexes ↔
    ∃ key, writable key ∧ source.addresses.idxOf? key = some index.toNat
  /-- The readonly places are the first places of the readonly keys. -/
  mem_readonlyIndexes_iff : ∀ index, index ∈ lookup.readonlyIndexes ↔
    ∃ key, readonly key ∧ source.addresses.idxOf? key = some index.toNat

/-- The keys of a pick may be described in other words, as far as they are held by the table. -/
theorem TableLookup.Picks.congr {lookup : TableLookup} {source : LookupTable}
    {writable readonly otherWritable otherReadonly : Address → Prop}
    (picks : lookup.Picks source writable readonly)
    (writable_iff : ∀ key ∈ source.addresses, writable key ↔ otherWritable key)
    (readonly_iff : ∀ key ∈ source.addresses, readonly key ↔ otherReadonly key) :
    lookup.Picks source otherWritable otherReadonly := by
  have reworded : ∀ {one other : Address → Prop}, (∀ key ∈ source.addresses, one key ↔ other key) →
      ∀ index : UInt8, (∃ key, one key ∧ source.addresses.idxOf? key = some index.toNat) ↔
        ∃ key, other key ∧ source.addresses.idxOf? key = some index.toNat := by
    intro one other same index
    refine exists_congr fun key => and_congr_left fun found => same key ?_
    exact List.isSome_idxOf?.mp (by rw [found]; rfl)
  exact { picks with
    mem_writableIndexes_iff := fun index =>
      (picks.mem_writableIndexes_iff index).trans (reworded writable_iff index)
    mem_readonlyIndexes_iff := fun index =>
      (picks.mem_readonlyIndexes_iff index).trans (reworded readonly_iff index) }

namespace KeyTable

variable {table rest : KeyTable} {use : Address → KeyUse}

/-- A table of keys offers a key, as writable or as readonly, when it holds the key and a lookup
table may supply it. -/
def Offers (table : KeyTable) (use : Address → KeyUse) (writes : Bool) (key : Address) : Prop :=
  key ∈ table.keys ∧ (use key).isLoadable = true ∧ (use key).isWritable = writes

/-- What is drained from a lookup table is selected among the keys on offer with one permission. -/
theorem mem_select_iff_offers {wanted : KeyUse → Bool} (records : table.Records use)
    {writes : Bool}
    (wanted_iff : ∀ use, wanted use = true ↔ use.isLoadable = true ∧ use.isWritable = writes)
    (key : Address) : key ∈ table.select wanted ↔ table.Offers use writes key := by
  rw [records.mem_select_iff_of_payer, wanted_iff, Offers]
  intro key signs _
  rw [← Bool.not_eq_true, wanted_iff, KeyUse.isLoadable, signs]
  simp

/-- A drain of keys that may be loaded takes exactly those on offer that the lookup table holds. The
keys of the other permission stay on offer. -/
theorem exact_of_drain {addresses : List Address} {wanted : KeyUse → Bool} {indexes : Bytes}
    {taken : List Address} (records : table.Records use) (writes : Bool)
    (wanted_iff : ∀ use, wanted use = true ↔ use.isLoadable = true ∧ use.isWritable = writes)
    (drained : table.drain addresses wanted = .ok (indexes, taken, rest)) :
    Drained addresses (table.Offers use writes) indexes taken ∧
      ∀ permission key, rest.Offers use permission key ↔
        table.Offers use permission key ∧ (permission = writes → key ∉ addresses) := by
  have exactly := (drained_of_drain records drained).2
  simp only [mem_select_iff_offers records wanted_iff] at exactly
  refine ⟨exactly, fun permission key => ?_⟩
  have left : rest.Offers use permission key ↔
      table.Offers use permission key ∧ key ∉ taken := by
    simp only [Offers, (records_of_drain records drained).2.2, List.mem_filter,
      Bool.not_eq_true', List.contains_eq_mem, decide_eq_false_iff_not]
    tauto
  rw [left, exactly.mem_iff]
  refine and_congr_right fun offered => ?_
  constructor
  · rintro spared rfl held
    exact spared ⟨offered, held⟩
  · rintro spared ⟨other, held⟩
    exact spared (offered.2.2.symm.trans other.2.2) held

/-- One lookup table supplies every key that it holds among those on offer, and nothing where it
holds none of them. The writable keys are taken first, which does not change the readonly keys on
offer. -/
theorem exact_of_extract {source : LookupTable}
    {selection : Option (TableLookup × LoadedAddresses)} (records : table.Records use)
    (extracted : table.extract source = .ok (selection, rest)) :
    (∀ made ∈ selection, made.1.Picks source (table.Offers use true) (table.Offers use false)) ∧
    (selection.isSome = true ↔ ∃ writes key, table.Offers use writes key ∧ key ∈ source.addresses) ∧
    ∀ writes key, rest.Offers use writes key ↔
      table.Offers use writes key ∧ key ∉ source.addresses := by
  simp only [extract, Outcome.bind_eq_ok_iff] at extracted
  obtain ⟨⟨writableIndexes, writable, middle⟩, writableDrained,
    ⟨readonlyIndexes, readonly, last⟩, readonlyDrained, returned⟩ := extracted
  obtain ⟨writableExact, middleOffers⟩ := exact_of_drain records true (by simp) writableDrained
  obtain ⟨readonlyExact, lastOffers⟩ :=
    exact_of_drain (records_of_drain records writableDrained).1 false (by simp) readonlyDrained
  have stillOffered : middle.Offers use false = table.Offers use false := by
    funext key
    simp [middleOffers]
  have left : ∀ writes key, last.Offers use writes key ↔
      table.Offers use writes key ∧ key ∉ source.addresses := by
    intro writes key
    rw [lastOffers, middleOffers]
    cases writes <;> simp
  rw [stillOffered] at readonlyExact
  have supplied : (∃ writes key, table.Offers use writes key ∧ key ∈ source.addresses) ↔
      (TableLookup.isEmpty ⟨source.key, writableIndexes, readonlyIndexes⟩) = false := by
    rw [Bool.exists_bool, ← writableExact.ne_nil_iff, ← readonlyExact.ne_nil_iff]
    simp [TableLookup.isEmpty, or_comm, ← not_and_or]
  dsimp only at returned
  split at returned
  · rename_i selectsNothing
    cases returned
    rw [supplied, selectsNothing]
    exact ⟨by simp, by simp, left⟩
  · rename_i selectsSomething
    cases returned
    rw [supplied]
    have notEmpty := Bool.eq_false_iff.mpr selectsSomething
    refine ⟨?_, by simpa using notEmpty, left⟩
    rintro _ ⟨⟩
    refine ⟨rfl, notEmpty, writableExact.ascending, readonlyExact.ascending, ?_,
      writableExact.mem_indexes_iff, readonlyExact.mem_indexes_iff⟩
    -- One place holds one key, which cannot be on offer in both ways.
    intro index inWritable inReadonly
    obtain ⟨key, offered, found⟩ := (writableExact.mem_indexes_iff index).mp inWritable
    obtain ⟨other, otherOffered, otherFound⟩ := (readonlyExact.mem_indexes_iff index).mp inReadonly
    obtain ⟨_, holds, _⟩ := List.idxOf?_eq_some_iff.mp found
    obtain ⟨_, otherHolds, _⟩ := List.idxOf?_eq_some_iff.mp otherFound
    obtain rfl : key = other := holds.symm.trans otherHolds
    cases offered.2.2.symm.trans otherOffered.2.2

end KeyTable

/-- Which of several lookup tables supplies a key: the first that holds it. -/
def LookupTable.firstHolder? (tables : List LookupTable) (key : Address) : Option Nat :=
  tables.findIdx? fun table => table.addresses.contains key

namespace LookupTable

variable {source : LookupTable} {others : List LookupTable} {key : Address}

/-- The first table supplies what it holds, and the tables behind it the rest. -/
theorem firstHolder?_cons : firstHolder? (source :: others) key =
    if key ∈ source.addresses then some 0 else (firstHolder? others key).map (· + 1) := by
  simp only [firstHolder?, List.findIdx?_cons, List.contains_iff_mem]

theorem firstHolder?_cons_eq_zero_iff :
    firstHolder? (source :: others) key = some 0 ↔ key ∈ source.addresses := by
  by_cases held : key ∈ source.addresses <;> simp [firstHolder?_cons, held]

theorem firstHolder?_cons_eq_succ_iff {number : Nat} :
    firstHolder? (source :: others) key = some (number + 1) ↔
      key ∉ source.addresses ∧ firstHolder? others key = some number := by
  by_cases held : key ∈ source.addresses <;> simp [firstHolder?_cons, held]

theorem firstHolder?_cons_eq_none_iff :
    firstHolder? (source :: others) key = none ↔
      key ∉ source.addresses ∧ firstHolder? others key = none := by
  by_cases held : key ∈ source.addresses <;> simp [firstHolder?_cons, held]

end LookupTable

namespace KeyTable

variable {table rest : KeyTable} {use : Address → KeyUse}

/-- Lookup tables supplied exactly the keys on offer that some of them holds, each from the first
that holds it. The numbers are those of the tables from which some key comes. -/
structure Extracted (table : KeyTable) (use : Address → KeyUse) (sources : List LookupTable)
    (selections : List (TableLookup × LoadedAddresses)) (rest : KeyTable) (numbers : List Nat) :
    Prop where
  /-- The tables are used in order, each at most once. -/
  ascending : numbers.Pairwise (· < ·)
  /-- A table is used when it is the first that holds some key on offer. -/
  mem_numbers_iff : ∀ number, number ∈ numbers ↔ ∃ writes key, table.Offers use writes key ∧
    LookupTable.firstHolder? sources key = some number
  /-- The selection made from a table picks the keys on offer of which it is the first holder. -/
  picks : List.Forall₂ (fun number made => ∃ source, sources[number]? = some source ∧
    ResolvesIn source made ∧ made.1.Picks source
      (fun key => table.Offers use true key ∧ LookupTable.firstHolder? sources key = some number)
      (fun key => table.Offers use false key ∧ LookupTable.firstHolder? sources key = some number))
    numbers selections
  /-- What no table holds stays on offer. -/
  left : ∀ writes key, rest.Offers use writes key ↔
    table.Offers use writes key ∧ LookupTable.firstHolder? sources key = none

/-- Lookup tables one after the other supply exactly the keys on offer that some of them holds.

The induction is on the lookup tables. What the first leaves on offer is what it does not hold, so
the numbers of the others, moved up by one, are right for the whole list. -/
theorem extracted_of_extractAll {sources : List LookupTable}
    {selections : List (TableLookup × LoadedAddresses)} (records : table.Records use)
    (succeeded : table.extractAll sources = .ok (selections, rest)) :
    ∃ numbers, table.Extracted use sources selections rest numbers := by
  induction sources generalizing table selections with
  | nil =>
    cases succeeded
    exact ⟨[], .nil, by simp [LookupTable.firstHolder?], .nil, by simp [LookupTable.firstHolder?]⟩
  | cons source others inductionHypothesis =>
    simp only [extractAll, Outcome.bind_eq_ok_iff] at succeeded
    obtain ⟨⟨selection, middle⟩, first, ⟨later, last⟩, continued, returned⟩ := succeeded
    cases returned
    obtain ⟨supplied, resolved⟩ := supplies_of_extract records first
    obtain ⟨picked, supplies_iff, left⟩ := exact_of_extract records first
    obtain ⟨numbers, behind⟩ := inductionHypothesis supplied.records continued
    refine ⟨selection.toList.map (fun _ => 0) ++ numbers.map (· + 1), ?_⟩
    constructor
    case ascending =>
      rw [List.pairwise_append, List.pairwise_map, List.pairwise_map]
      exact ⟨by cases selection <;> simp, behind.ascending.imp (by simp), by simp⟩
    case mem_numbers_iff =>
      rintro (_ | number)
      · simp only [LookupTable.firstHolder?_cons_eq_zero_iff]
        rw [← supplies_iff]
        cases selection <;> simp
      · have shifted : number + 1 ∈ selection.toList.map (fun _ => 0) ++ numbers.map (· + 1) ↔
            number ∈ numbers := by simp
        rw [shifted, behind.mem_numbers_iff]
        simp only [left, and_assoc, LookupTable.firstHolder?_cons_eq_succ_iff]
    case picks =>
      refine List.rel_append ?_ (List.forall₂_map_left_iff.mpr (behind.picks.imp ?_))
      · cases selection with
        | none => exact .nil
        | some made =>
          refine .cons ⟨source, rfl, resolved made rfl, (picked made rfl).congr ?_ ?_⟩ .nil
          · exact fun key held => (and_iff_left
              (LookupTable.firstHolder?_cons_eq_zero_iff.mpr held)).symm
          · exact fun key held => (and_iff_left
              (LookupTable.firstHolder?_cons_eq_zero_iff.mpr held)).symm
      · rintro number made ⟨other, found, resolves, picksLater⟩
        refine ⟨other, found, resolves, picksLater.congr ?_ ?_⟩
        · intro key _
          rw [left, LookupTable.firstHolder?_cons_eq_succ_iff, and_assoc]
        · intro key _
          rw [left, LookupTable.firstHolder?_cons_eq_succ_iff, and_assoc]
    case left =>
      intro writes key
      rw [behind.left, left, LookupTable.firstHolder?_cons_eq_none_iff, and_assoc]

/-- The keys that were taken are those on offer that some lookup table holds. -/
theorem Extracted.mem_taken_iff {sources : List LookupTable} {numbers : List Nat}
    {selections : List (TableLookup × LoadedAddresses)} {writable readonly : List Address}
    (extracted : table.Extracted use sources selections rest numbers)
    (supplied : table.Supplies use writable readonly rest) (key : Address) :
    key ∈ writable ++ readonly ↔ table.Offers use (use key).isWritable key ∧
      (LookupTable.firstHolder? sources key).isSome = true := by
  have remains : key ∈ rest.keys ↔ key ∈ table.keys ∧ key ∉ writable ++ readonly := by
    rw [supplied.keys_eq, List.mem_filter]
    simp
  have onOffer := extracted.left (use key).isWritable key
  simp only [Offers, remains, and_true] at onOffer ⊢
  rw [Option.isSome_iff_ne_none]
  constructor
  · intro taken
    have held := supplied.mem_keys taken
    have loadable := supplied.isLoadable taken
    exact ⟨⟨held, loadable⟩, fun nowhere => (onOffer.mpr ⟨⟨held, loadable⟩, nowhere⟩).1.2 taken⟩
  · rintro ⟨⟨held, loadable⟩, somewhere⟩
    by_contra spared
    exact somewhere (onOffer.mp ⟨⟨held, spared⟩, loadable⟩).2

end KeyTable

/-- Resolve each lookup against the lookup table of the number beside it, and join what they load.
Other than `TableLookup.loadAll`, this does not search for a table by its key, which two tables may
share. -/
def TableLookup.loadEach (tables : List LookupTable) (numbers : List Nat)
    (lookups : List TableLookup) : Except MessageError LoadedAddresses := do
  let loaded ← (numbers.zip lookups).mapM fun (number, lookup) =>
    load tables[number]?.toList lookup
  return LoadedAddresses.merge loaded

/-- Lookups are made from the lookup tables of certain numbers, in the order of the tables, and load
certain keys. -/
structure TableLookup.MadeFrom (tables : List LookupTable) (numbers : List Nat)
    (lookups : List TableLookup) (loaded : LoadedAddresses) : Prop where
  /-- The tables are used in order, each at most once. -/
  ascending : numbers.Pairwise (· < ·)
  /-- There is one table for each lookup. -/
  length_eq : numbers.length = lookups.length
  /-- Each lookup resolves in its table. -/
  loaded_eq : loadEach tables numbers lookups = .ok loaded

namespace TableLookup

variable {tables : List LookupTable} {numbers : List Nat}

/-- Among lookup tables of pairwise distinct keys, what resolves in one of them resolves in all. -/
theorem load_of_mem {source : LookupTable} {lookup : TableLookup} {loaded : LoadedAddresses}
    (distinct : (tables.map LookupTable.key).Nodup) (supplied : source ∈ tables)
    (resolved : load [source] lookup = .ok loaded) : load tables lookup = .ok loaded := by
  by_cases same : source.key = lookup.tableKey
  · have first := find?_key_eq_some distinct supplied
    rw [same] at first
    rw [load, first]
    simpa [load, same] using resolved
  · simp [load, same] at resolved

/-- Among lookup tables of pairwise distinct keys, lookups load what their own tables hold. -/
theorem MadeFrom.loadAll_eq {lookups : List TableLookup} {loaded : LoadedAddresses}
    (made : MadeFrom tables numbers lookups loaded)
    (distinct : (tables.map LookupTable.key).Nodup) : loadAll tables lookups = .ok loaded := by
  have resolved := made.loaded_eq
  simp only [loadEach, Outcome.bind_eq_ok_iff] at resolved
  obtain ⟨parts, partsLoaded, returned⟩ := resolved
  cases returned
  have searched : ∀ (entry : Nat × TableLookup) part,
      load tables[entry.1]?.toList entry.2 = .ok part → load tables entry.2 = .ok part := by
    intro entry part resolved
    cases found : tables[entry.1]? with
    | none => simp [load, found] at resolved
    | some source =>
      rw [found] at resolved
      exact load_of_mem distinct (List.mem_of_getElem? found) resolved
  have lookups_eq : (numbers.zip lookups).map Prod.snd = lookups :=
    List.map_snd_zip (Nat.le_of_eq made.length_eq.symm)
  have loads : lookups.mapM (load tables) = .ok parts := by
    rw [Outcome.mapM_eq_ok_iff, ← lookups_eq, List.forall₂_map_left_iff]
    exact ((Outcome.mapM_eq_ok_iff _ _ _).mp partsLoaded).imp searched
  simp only [loadAll, loads]
  rfl

end TableLookup

/-- Extracted selections are made from the lookup tables of their numbers and load what was taken.
-/
theorem KeyTable.Extracted.madeFrom {table rest : KeyTable} {use : Address → KeyUse}
    {tables : List LookupTable} {numbers : List Nat}
    {selections : List (TableLookup × LoadedAddresses)}
    (extracted : table.Extracted use tables selections rest numbers) :
    TableLookup.MadeFrom tables numbers (selections.map Prod.fst)
      (LoadedAddresses.merge (selections.map Prod.snd)) := by
  have loads : List.Forall₂ (fun entry loaded =>
        TableLookup.load tables[entry.1]?.toList entry.2 = .ok loaded)
      (numbers.zip (selections.map Prod.fst)) (selections.map Prod.snd) := by
    have picks := extracted.picks
    clear extracted
    induction picks with
    | nil => exact .nil
    | @cons number made _ _ here _ inductionHypothesis =>
      obtain ⟨source, found, resolves, _⟩ := here
      refine .cons ?_ inductionHypothesis
      simp only [TableLookup.load, found, Option.toList_some, resolves.tableKey_eq,
        List.find?_singleton, beq_self_eq_true, if_true, resolves.writable_eq,
        resolves.readonly_eq]
      rfl
  refine ⟨extracted.ascending, by rw [List.length_map, extracted.picks.length_eq], ?_⟩
  simp only [TableLookup.loadEach, (Outcome.mapM_eq_ok_iff _ _ _).mpr loads]
  rfl

namespace Mentions

/-- A lookup table may supply a key that is mentioned, does not sign and is not run, all references
to it taken together. -/
def IsLoadable (payer : Option Address) (instructions : List Instruction) (key : Address) : Prop :=
  IsMentioned payer instructions key ∧ isSigner payer instructions key = false ∧
    isProgram instructions key = false

/-- The collected keys on offer are those that may be loaded. -/
theorem offers_ofInstructions_iff {payer : Option Address} {instructions : List Instruction}
    {writes : Bool} {key : Address} :
    (KeyTable.ofInstructions payer instructions).Offers (use payer instructions) writes key ↔
      IsLoadable payer instructions key ∧ isWritable payer instructions key = writes := by
  simp only [KeyTable.Offers, KeyTable.mem_keys_ofInstructions, IsLoadable, use,
    KeyUse.isLoadable, Bool.and_eq_true, Bool.not_eq_true', and_assoc]

end Mentions

/-- The lookups of a message select, of the keys that may be loaded, exactly those that some lookup
table holds: each from the first table that holds it, at its first place there, and once. The
message carries the others. -/
structure V0Message.Selects (payer : Option Address) (instructions : List Instruction)
    (tables : List LookupTable) (message : V0Message) (numbers : List Nat)
    (loaded : LoadedAddresses) : Prop where
  /-- The lookups are made from the tables of these numbers, in order, and load these keys. -/
  made : TableLookup.MadeFrom tables numbers message.addressTableLookups loaded
  /-- These are the tables from which some key comes. -/
  mem_numbers_iff : ∀ number, number ∈ numbers ↔ ∃ key,
    Mentions.IsLoadable payer instructions key ∧
      LookupTable.firstHolder? tables key = some number
  /-- Each lookup picks the keys that come from its table, with the permission asked of them. -/
  picks : List.Forall₂ (fun number lookup => ∃ source, tables[number]? = some source ∧
    lookup.Picks source
      (fun key => Mentions.IsLoadable payer instructions key ∧
        LookupTable.firstHolder? tables key = some number ∧
        Mentions.isWritable payer instructions key = true)
      (fun key => Mentions.IsLoadable payer instructions key ∧
        LookupTable.firstHolder? tables key = some number ∧
        Mentions.isWritable payer instructions key = false)) numbers message.addressTableLookups
  /-- No key is selected twice. -/
  nodup : (loaded.writable ++ loaded.readonly).Nodup
  /-- A key is selected exactly when it may be loaded and some table holds it. -/
  mem_loaded_iff : ∀ key, key ∈ loaded.writable ++ loaded.readonly ↔
    Mentions.IsLoadable payer instructions key ∧
      (LookupTable.firstHolder? tables key).isSome = true
  /-- The message carries the mentioned keys that are not selected. -/
  mem_accountKeys_iff : ∀ key, key ∈ message.accountKeys ↔
    Mentions.IsMentioned payer instructions key ∧ key ∉ loaded.writable ++ loaded.readonly

/-- Compilation selects exactly the right keys from the lookup tables, whatever these hold: they may
overlap, repeat keys, share an address, or hold signers and programs. -/
theorem V0Message.selects_of_compile (payer : Option Address) (instructions : List Instruction)
    (tables : List LookupTable) (recentBlockhash : Hash) (message : V0Message)
    (compiled : V0Message.compile payer instructions tables recentBlockhash = .ok message) :
    ∃ numbers loaded, V0Message.Selects payer instructions tables message numbers loaded := by
  obtain ⟨selections, rest, succeeded, lookups, arranged⟩ := V0Message.extracted_of_compile compiled
  obtain ⟨numbers, extracted⟩ := KeyTable.extracted_of_extractAll
    (KeyTable.records_ofInstructions payer instructions) succeeded
  refine ⟨numbers, LoadedAddresses.merge (selections.map Prod.snd), ?_⟩
  constructor
  case made => exact lookups ▸ extracted.madeFrom
  case mem_numbers_iff =>
    intro number
    rw [extracted.mem_numbers_iff]
    simp only [Mentions.offers_ofInstructions_iff]
    constructor
    · rintro ⟨_, key, ⟨loadable, _⟩, first⟩
      exact ⟨key, loadable, first⟩
    · rintro ⟨key, loadable, first⟩
      exact ⟨_, key, ⟨loadable, rfl⟩, first⟩
  case picks =>
    rw [lookups, List.forall₂_map_right_iff]
    refine extracted.picks.imp ?_
    rintro number made ⟨source, found, _, picked⟩
    simp only [Mentions.offers_ofInstructions_iff] at picked
    refine ⟨source, found, picked.congr ?_ ?_⟩
    · intro key _
      tauto
    · intro key _
      tauto
  case nodup => exact arranged.supplies.nodup
  case mem_loaded_iff =>
    intro key
    rw [extracted.mem_taken_iff arranged.supplies, Mentions.offers_ofInstructions_iff]
    simp only [Mentions.use, and_true]
  case mem_accountKeys_iff => exact arranged.mem_accountKeys_iff

/-- Three tables, of which the last has the key of the first. The first holds the second account
twice and nothing else that may be loaded, the second nothing at all that may be, and the third the
second account again and the fourth. -/
def sampleOverlapping : List LookupTable :=
  [⟨.numbered 5, [.numbered 9, .numbered 2, .numbered 1, .numbered 2]⟩,
    ⟨.numbered 6, [.numbered 3, .numbered 9]⟩,
    ⟨.numbered 5, [.numbered 2, .numbered 4, .numbered 4]⟩]

/-- The version 0 message loads the second account from the first of them and the fourth from the
third. -/
def sampleOverlappingV0 : V0Message :=
  { sampleV0 with addressTableLookups := [⟨.numbered 5, [1], []⟩, ⟨.numbered 5, [], [1]⟩] }

theorem compile_sampleOverlapping :
    V0Message.compile (some (.numbered 1)) sampleInstructions sampleOverlapping Hash.zero =
      .ok sampleOverlappingV0 := by
  decide

/-- Neither the second table nor any place behind the first of a key is used. -/
theorem V0Message.selects_of_compile_sample :
    V0Message.compile (some (.numbered 1)) sampleInstructions sampleOverlapping Hash.zero =
      .ok sampleOverlappingV0 ∧
    ∃ numbers loaded, V0Message.Selects (some (.numbered 1)) sampleInstructions sampleOverlapping
      sampleOverlappingV0 numbers loaded :=
  ⟨compile_sampleOverlapping, V0Message.selects_of_compile _ _ _ _ _ compile_sampleOverlapping⟩

end Transact
