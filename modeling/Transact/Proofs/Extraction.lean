import Mathlib.Data.List.Perm.Basic
import Transact.Compile.KeyTable
import Transact.Proofs.KeyGroups

/-!
# What lookup tables supply

Extraction takes out of a table of keys what lookup tables can supply. A lookup table is walked for
the wanted keys that it holds, of which each is noted at its first place (`KeyTable.Drained`,
`KeyTable.drained_of_drain`). Each step removes keys that neither sign nor run and keeps the table's
invariant, so any number of steps in a row does (`KeyTable.Supplies`,
`KeyTable.supplies_of_extractAll`).

The other main statement, `loadAll_of_extractAll`, is about the way back: as long as no two tables
share a key, resolving the selections against the tables gives the keys that were taken out, in the
same order.
-/

namespace Transact

namespace KeyTable

variable {table middle rest : KeyTable} {use : Address → KeyUse}

/-- What a walk notes is a wanted key at its place in the table. -/
theorem mem_positions {start place : Nat} {wanted addresses : List Address} {address : Address}
    (noted : (place, address) ∈ positions start wanted addresses) :
    address ∈ wanted ∧ start ≤ place ∧ addresses[place - start]? = some address := by
  induction addresses generalizing start wanted with
  | nil => simp [positions] at noted
  | cons first others inductionHypothesis =>
    have later : ∀ remaining : List Address, (∀ key ∈ remaining, key ∈ wanted) →
        (place, address) ∈ positions (start + 1) remaining others →
        address ∈ wanted ∧ start ≤ place ∧ (first :: others)[place - start]? = some address := by
      intro remaining subset member
      obtain ⟨inRemaining, after, found⟩ := inductionHypothesis member
      have shifted : place - start = (place - (start + 1)) + 1 := by omega
      refine ⟨subset _ inRemaining, by omega, ?_⟩
      rw [shifted, List.getElem?_cons_succ]
      exact found
    rw [positions] at noted
    split at noted
    · rename_i present
      rcases List.mem_cons.mp noted with here | member
      · cases here
        exact ⟨by simpa using present, Nat.le_refl _, by simp⟩
      · exact later _ (fun key => List.mem_of_mem_erase) member
    · exact later wanted (fun key => id) noted

/-- No key is noted twice, as a noted key is no longer wanted. -/
theorem nodup_positions (start : Nat) {wanted : List Address} (addresses : List Address)
    (unique : wanted.Nodup) : ((positions start wanted addresses).map Prod.snd).Nodup := by
  induction addresses generalizing start wanted with
  | nil => simp [positions]
  | cons first others inductionHypothesis =>
    rw [positions]
    split
    · rw [List.map_cons, List.nodup_cons]
      refine ⟨?_, inductionHypothesis (start + 1) (unique.erase first)⟩
      intro again
      obtain ⟨⟨place, address⟩, noted, same⟩ := List.mem_map.mp again
      have wantedAgain := (mem_positions noted).1
      rw [show address = first from same] at wantedAgain
      exact unique.not_mem_erase wantedAgain
    · exact inductionHypothesis (start + 1) unique

/-- A walk notes a wanted key exactly at its first place. -/
theorem mem_positions_iff (start : Nat) {wanted : List Address} (addresses : List Address)
    (unique : wanted.Nodup) (place : Nat) (address : Address) :
    (place, address) ∈ positions start wanted addresses ↔
      address ∈ wanted ∧ start ≤ place ∧ addresses.idxOf? address = some (place - start) := by
  induction addresses generalizing start wanted with
  | nil => simp [positions]
  | cons first others inductionHypothesis =>
    by_cases same : first = address
    · subst same
      have gone : ∀ remaining : List Address, first ∉ remaining →
          (place, first) ∉ positions (start + 1) remaining others := fun remaining absent noted =>
        absent (mem_positions noted).1
      have here : start ≤ place ∧ (first :: others).idxOf? first = some (place - start) ↔
          place = start := by
        simp only [List.idxOf?_cons, beq_self_eq_true, if_true, Option.some.injEq]
        omega
      rw [positions, here]
      by_cases member : first ∈ wanted
      · rw [if_pos (List.contains_iff_mem.mpr member), List.mem_cons]
        simp [gone _ unique.not_mem_erase, member]
      · rw [if_neg (by simpa using member)]
        simp [gone wanted member, member]
    · have later : start ≤ place ∧ (first :: others).idxOf? address = some (place - start) ↔
          start + 1 ≤ place ∧ others.idxOf? address = some (place - (start + 1)) := by
        simp only [List.idxOf?_cons, beq_eq_false_iff_ne.mpr same, Bool.false_eq_true, if_false,
          Option.map_eq_some_iff]
        constructor
        · rintro ⟨_, offset, found, shifted⟩
          exact ⟨by omega, by rw [found]; congr 1; omega⟩
        · rintro ⟨after, found⟩
          exact ⟨by omega, _, found, by omega⟩
      rw [positions, later]
      split
      · rw [List.mem_cons, inductionHypothesis (start + 1) (unique.erase first),
          List.mem_erase_of_ne (Ne.symm same)]
        simp [Ne.symm same]
      · exact inductionHypothesis (start + 1) unique

/-- A walk notes places in ascending order. -/
theorem ascending_positions (start : Nat) (wanted addresses : List Address) :
    ((positions start wanted addresses).map Prod.fst).Pairwise (· < ·) := by
  induction addresses generalizing start wanted with
  | nil => simp [positions]
  | cons first others inductionHypothesis =>
    rw [positions]
    split
    · rw [List.map_cons, List.pairwise_cons]
      refine ⟨?_, inductionHypothesis (start + 1) (wanted.erase first)⟩
      intro place member
      obtain ⟨⟨_, address⟩, noted, rfl⟩ := List.mem_map.mp member
      exact (mem_positions noted).2.1
    · exact inductionHypothesis (start + 1) wanted

/-- A place that is written as a byte can be read back from it. -/
theorem toNat_indexByte {place : Nat} {index : UInt8} (written : indexByte place = .ok index) :
    index.toNat = place := by
  unfold indexByte at written
  split at written
  · cases written
    simp only [UInt8.toNat_ofNat']
    omega
  · cases written

/-- Places and keys were drained from a lookup table when the places ascend, each is the first place
of the key beside it, and the keys are those wanted that the lookup table holds. -/
structure Drained (addresses : List Address) (wanted : Address → Prop) (indexes : Bytes)
    (taken : List Address) : Prop where
  /-- The places ascend. -/
  ascending : indexes.Pairwise (· < ·)
  /-- Each place is the first of its key. -/
  beside : List.Forall₂ (fun index key => addresses.idxOf? key = some index.toNat) indexes taken
  /-- No key is taken twice. -/
  nodup : taken.Nodup
  /-- Every wanted key that the lookup table holds is taken, and no other. -/
  mem_iff : ∀ key, key ∈ taken ↔ wanted key ∧ key ∈ addresses

/-- Draining takes all keys of the wanted use that the lookup table holds, and leaves the others. -/
theorem drained_of_drain {addresses : List Address} {wanted : KeyUse → Bool} {indexes : Bytes}
    {taken : List Address} (records : table.Records use)
    (drained : table.drain addresses wanted = .ok (indexes, taken, rest)) :
    rest = table.without taken ∧ Drained addresses (· ∈ table.select wanted) indexes taken := by
  simp only [drain, Outcome.bind_eq_ok_iff] at drained
  obtain ⟨written, indexed, returned⟩ := drained
  cases returned
  have noted := mem_positions_iff 0 addresses (records.nodup_select wanted)
  have beside : List.Forall₂ (fun entry index => index.toNat = entry.1)
      (positions 0 (table.select wanted) addresses) indexes :=
    ((Outcome.mapM_eq_ok_iff _ _ _).mp indexed).imp fun _ _ written => toNat_indexByte written
  refine ⟨rfl, ?_⟩
  constructor
  case ascending =>
    have places : indexes.map UInt8.toNat =
        (positions 0 (table.select wanted) addresses).map Prod.fst := by
      rw [← List.forall₂_eq_eq_eq, List.forall₂_map_left_iff, List.forall₂_map_right_iff]
      exact beside.flip
    have ascending := ascending_positions 0 (table.select wanted) addresses
    rw [← places, List.pairwise_map] at ascending
    exact ascending.imp fun below => UInt8.lt_iff_toNat_lt.mpr below
  case beside =>
    have resolved := (List.forall₂_and_left _ _).mpr
      ⟨fun entry member => ((noted entry.1 entry.2).mp member).2.2, beside⟩
    refine List.forall₂_map_right_iff.mpr (resolved.flip.imp ?_)
    rintro index entry ⟨found, written⟩
    rw [found, written, Nat.sub_zero]
  case nodup => exact nodup_positions 0 addresses (records.nodup_select wanted)
  case mem_iff =>
    intro key
    rw [List.mem_map]
    constructor
    · rintro ⟨⟨place, _⟩, member, rfl⟩
      obtain ⟨selected, _, found⟩ := (noted place _).mp member
      exact ⟨selected, List.isSome_idxOf?.mp (by rw [found]; rfl)⟩
    · rintro ⟨selected, held⟩
      obtain ⟨place, found⟩ := Option.isSome_iff_exists.mp (List.isSome_idxOf?.mpr held)
      exact ⟨(place, key), (noted place key).mpr ⟨selected, Nat.zero_le _, found⟩, rfl⟩

/-- The drained places are the first places of the wanted keys. -/
theorem Drained.mem_indexes_iff {addresses : List Address} {wanted : Address → Prop}
    {indexes : Bytes} {taken : List Address} (drained : Drained addresses wanted indexes taken)
    (index : UInt8) :
    index ∈ indexes ↔ ∃ key, wanted key ∧ addresses.idxOf? key = some index.toNat := by
  constructor
  · intro member
    obtain ⟨key, inTaken, found⟩ := exists_related_of_mem drained.beside.flip member
    exact ⟨key, ((drained.mem_iff key).mp inTaken).1, found⟩
  · rintro ⟨key, wantedKey, found⟩
    have held : key ∈ addresses := List.isSome_idxOf?.mp (by rw [found]; rfl)
    obtain ⟨other, member, otherFound⟩ :=
      exists_related_of_mem drained.beside ((drained.mem_iff key).mpr ⟨wantedKey, held⟩)
    rw [found, Option.some.injEq, UInt8.toNat_inj] at otherFound
    exact otherFound ▸ member

/-- Some place is drained exactly where the lookup table holds a wanted key. -/
theorem Drained.ne_nil_iff {addresses : List Address} {wanted : Address → Prop}
    {indexes : Bytes} {taken : List Address} (drained : Drained addresses wanted indexes taken) :
    indexes ≠ [] ↔ ∃ key, wanted key ∧ key ∈ addresses := by
  rw [← List.length_pos_iff, drained.beside.length_eq, List.length_pos_iff_exists_mem]
  exact exists_congr drained.mem_iff

/-- Draining takes keys of the wanted use, each once, and notes for each a byte under which the
table holds it. -/
theorem drain_eq_ok {addresses : List Address} {wanted : KeyUse → Bool} {indexes : Bytes}
    {taken : List Address} (records : table.Records use)
    (drained : table.drain addresses wanted = .ok (indexes, taken, rest)) :
    rest = table.without taken ∧ taken.Nodup ∧ (∀ key ∈ taken, key ∈ table.select wanted) ∧
      List.Forall₂ (fun index key => addresses[index.toNat]? = some key) indexes taken := by
  obtain ⟨left, exactly⟩ := drained_of_drain records drained
  refine ⟨left, exactly.nodup, fun key member => ((exactly.mem_iff key).mp member).1,
    exactly.beside.imp fun index key found => ?_⟩
  obtain ⟨inside, holds, _⟩ := List.idxOf?_eq_some_iff.mp found
  rw [List.getElem?_eq_getElem inside, holds]

/-- Taking `writable` and `readonly` keys out of a table leaves another: each of them stood in the
first table once, neither signs nor runs, and is of the group it is listed under; what is left is
the rest of the table, still with its payer. -/
structure Supplies (table : KeyTable) (use : Address → KeyUse) (writable readonly : List Address)
    (rest : KeyTable) : Prop where
  /-- What is left is a table of the same demands. -/
  records : rest.Records use
  /-- The payer is never taken. -/
  payer_eq : rest.payer = table.payer
  /-- The keys that are left keep their order. -/
  keys_eq : rest.keys = table.keys.filter fun key => !(writable ++ readonly).contains key
  /-- No key is taken twice. -/
  nodup : (writable ++ readonly).Nodup
  /-- Keys taken as writable. -/
  writable_mem : ∀ key ∈ writable,
    key ∈ table.keys ∧ (use key).isLoadable = true ∧ (use key).isWritable = true
  /-- Keys taken as readonly. -/
  readonly_mem : ∀ key ∈ readonly,
    key ∈ table.keys ∧ (use key).isLoadable = true ∧ (use key).isWritable = false

namespace Supplies

/-- Taking nothing leaves the table. -/
theorem refl (records : table.Records use) : table.Supplies use [] [] table :=
  ⟨records, rfl, by simp, List.nodup_nil, by simp, by simp⟩

/-- Every key taken stood in the table. -/
theorem mem_keys {writable readonly : List Address}
    (supplied : table.Supplies use writable readonly rest) {key : Address}
    (taken : key ∈ writable ++ readonly) : key ∈ table.keys := by
  rcases List.mem_append.mp taken with member | member
  · exact (supplied.writable_mem key member).1
  · exact (supplied.readonly_mem key member).1

/-- Every key taken may come from a lookup table. -/
theorem isLoadable {writable readonly : List Address}
    (supplied : table.Supplies use writable readonly rest) {key : Address}
    (taken : key ∈ writable ++ readonly) : (use key).isLoadable = true := by
  rcases List.mem_append.mp taken with member | member
  · exact (supplied.writable_mem key member).2.1
  · exact (supplied.readonly_mem key member).2.1

/-- Taking keys out twice in a row takes out both lots at once. What is taken second is still in
the table after the first, so it is none of the keys taken first. -/
theorem trans {firstWritable firstReadonly writable readonly : List Address}
    (first : table.Supplies use firstWritable firstReadonly middle)
    (second : middle.Supplies use writable readonly rest) :
    table.Supplies use (firstWritable ++ writable) (firstReadonly ++ readonly) rest := by
  have left : ∀ key ∈ middle.keys, key ∈ table.keys ∧ key ∉ firstWritable ++ firstReadonly := by
    intro key member
    rw [first.keys_eq, List.mem_filter] at member
    exact ⟨member.1, by simpa using member.2⟩
  have regrouped : ((firstWritable ++ writable) ++ (firstReadonly ++ readonly)).Perm
      ((firstWritable ++ firstReadonly) ++ (writable ++ readonly)) := by
    simp only [List.append_assoc]
    refine List.Perm.append_left _ ?_
    rw [← List.append_assoc, ← List.append_assoc]
    exact List.Perm.append_right _ List.perm_append_comm
  constructor
  case records => exact second.records
  case payer_eq => exact second.payer_eq.trans first.payer_eq
  case keys_eq =>
    rw [second.keys_eq, first.keys_eq, List.filter_filter]
    apply List.filter_congr
    intro key _
    rw [Bool.eq_iff_iff]
    simp only [Bool.and_eq_true, Bool.not_eq_true', List.contains_eq_mem, decide_eq_false_iff_not,
      List.mem_append]
    tauto
  case nodup =>
    refine regrouped.nodup_iff.mpr (first.nodup.append second.nodup ?_)
    intro key earlier later
    exact (left key (second.mem_keys later)).2 earlier
  case writable_mem =>
    intro key member
    rcases List.mem_append.mp member with earlier | later
    · exact first.writable_mem key earlier
    · obtain ⟨inMiddle, uses⟩ := second.writable_mem key later
      exact ⟨(left key inMiddle).1, uses⟩
  case readonly_mem =>
    intro key member
    rcases List.mem_append.mp member with earlier | later
    · exact first.readonly_mem key earlier
    · obtain ⟨inMiddle, uses⟩ := second.readonly_mem key later
      exact ⟨(left key inMiddle).1, uses⟩

/-- The keys that are left, however they are laid out, and those taken are the keys of the table. -/
theorem mem_laidOut_iff {writable readonly keys : List Address} {header : MessageHeader}
    (supplied : table.Supplies use writable readonly rest) (laid : rest.LaidOut header keys)
    (key : Address) : key ∈ keys ++ writable ++ readonly ↔ key ∈ table.keys := by
  rw [List.append_assoc, List.mem_append, laid.mem_iff supplied.records, supplied.keys_eq,
    List.mem_filter]
  constructor
  · rintro (⟨member, _⟩ | taken)
    · exact member
    · exact supplied.mem_keys taken
  · intro member
    by_cases taken : key ∈ writable ++ readonly
    · exact Or.inr taken
    · exact Or.inl ⟨member, by simpa using taken⟩

/-- The keys that are left, however they are laid out, and those taken are all different. -/
theorem nodup_laidOut {writable readonly keys : List Address} {header : MessageHeader}
    (supplied : table.Supplies use writable readonly rest) (laid : rest.LaidOut header keys) :
    (keys ++ writable ++ readonly).Nodup := by
  rw [List.append_assoc]
  apply (laid.nodup supplied.records).append supplied.nodup
  intro key left taken
  rw [laid.mem_iff supplied.records, supplied.keys_eq, List.mem_filter] at left
  simp only [List.contains_eq_mem, taken, decide_true, Bool.not_true, Bool.false_eq_true,
    and_false] at left

end Supplies

/-- Draining keys that may come from a lookup table leaves the payer, who signs. -/
theorem records_of_drain {addresses : List Address} {wanted : KeyUse → Bool} {indexes : Bytes}
    {taken : List Address} (records : table.Records use)
    (drained : table.drain addresses wanted = .ok (indexes, taken, rest)) :
    rest.Records use ∧ rest.payer = table.payer ∧
      rest.keys = table.keys.filter fun key => !taken.contains key := by
  obtain ⟨rfl, _, selected, _⟩ := drain_eq_ok records drained
  refine ⟨records.without taken ?_, rfl, keys_without table taken⟩
  intro key paying member
  exact ((records.mem_select_iff wanted key).mp (selected key member)).2.1 paying

/-- The selection made from one lookup table resolves against that table to the keys taken, and it
is not empty. -/
structure ResolvesIn (source : LookupTable) (selection : TableLookup × LoadedAddresses) : Prop where
  /-- It names the table. -/
  tableKey_eq : selection.1.tableKey = source.key
  /-- It selects something. -/
  isEmpty_eq : selection.1.isEmpty = false
  /-- Its writable places hold the keys taken as writable. -/
  writable_eq :
    selection.1.writableIndexes.mapM (TableLookup.entry source) = .ok selection.2.writable
  /-- Its readonly places hold the keys taken as readonly. -/
  readonly_eq :
    selection.1.readonlyIndexes.mapM (TableLookup.entry source) = .ok selection.2.readonly

/-- Places that hold keys in a table resolve to those keys. -/
theorem mapM_entry {source : LookupTable} {indexes : Bytes} {keys : List Address}
    (held : List.Forall₂ (fun index key => source.addresses[index.toNat]? = some key) indexes
      keys) : indexes.mapM (TableLookup.entry source) = .ok keys :=
  (Outcome.mapM_eq_ok_iff _ _ _).mpr (held.imp fun _ _ => TableLookup.entry_eq_ok_iff.mpr)

/-- One lookup table supplies what its selection resolves to, or nothing at all. -/
theorem supplies_of_extract {source : LookupTable}
    {selection : Option (TableLookup × LoadedAddresses)} (records : table.Records use)
    (extracted : table.extract source = .ok (selection, rest)) :
    table.Supplies use (LoadedAddresses.merge (selection.toList.map Prod.snd)).writable
      (LoadedAddresses.merge (selection.toList.map Prod.snd)).readonly rest ∧
      ∀ made ∈ selection, ResolvesIn source made := by
  simp only [extract, Outcome.bind_eq_ok_iff] at extracted
  obtain ⟨⟨writableIndexes, writable, middle⟩, writableDrained,
    ⟨readonlyIndexes, readonly, last⟩, readonlyDrained, returned⟩ := extracted
  obtain ⟨_, writableNodup, writableSelected, writableHeld⟩ := drain_eq_ok records writableDrained
  obtain ⟨middleRecords, middlePayer, middleKeys⟩ := records_of_drain records writableDrained
  obtain ⟨_, readonlyNodup, readonlySelected, readonlyHeld⟩ :=
    drain_eq_ok middleRecords readonlyDrained
  obtain ⟨lastRecords, lastPayer, lastKeys⟩ := records_of_drain middleRecords readonlyDrained
  have suppliedWritable : table.Supplies use writable [] middle := by
    refine ⟨middleRecords, middlePayer, by simpa using middleKeys, by simpa using writableNodup,
      ?_, by simp⟩
    intro key member
    obtain ⟨inTable, _, wanted⟩ := (records.mem_select_iff _ key).mp (writableSelected key member)
    exact ⟨inTable, by simpa using wanted⟩
  have suppliedReadonly : middle.Supplies use [] readonly last := by
    refine ⟨lastRecords, lastPayer, by simpa using lastKeys, by simpa using readonlyNodup,
      by simp, ?_⟩
    intro key member
    obtain ⟨inTable, _, wanted⟩ :=
      (middleRecords.mem_select_iff _ key).mp (readonlySelected key member)
    exact ⟨inTable, by simpa using wanted⟩
  have supplied := suppliedWritable.trans suppliedReadonly
  simp only [List.append_nil, List.nil_append] at supplied
  dsimp only at returned
  split at returned
  · rename_i selectsNothing
    cases returned
    -- An empty selection stands for no keys, so leaving it out loses nothing.
    simp only [TableLookup.isEmpty, Bool.and_eq_true, List.isEmpty_iff] at selectsNothing
    obtain ⟨rfl, rfl⟩ := selectsNothing
    cases writableHeld
    cases readonlyHeld
    exact ⟨by simpa [LoadedAddresses.merge] using supplied, by simp⟩
  · rename_i selectsSomething
    cases returned
    refine ⟨by simpa [LoadedAddresses.merge] using supplied, ?_⟩
    rintro _ ⟨⟩
    exact ⟨rfl, by simpa using selectsSomething, mapM_entry writableHeld, mapM_entry readonlyHeld⟩

/-- Any number of lookup tables supply what their selections resolve to, all together.

The induction is on the lookup tables. The first leaves a table that meets the invariant, from
which the others take theirs; `Supplies.trans` joins the two. -/
theorem supplies_of_extractAll {sources : List LookupTable}
    {selections : List (TableLookup × LoadedAddresses)} (records : table.Records use)
    (extracted : table.extractAll sources = .ok (selections, rest)) :
    table.Supplies use (LoadedAddresses.merge (selections.map Prod.snd)).writable
      (LoadedAddresses.merge (selections.map Prod.snd)).readonly rest ∧
      ∀ made ∈ selections, ∃ source ∈ sources, ResolvesIn source made := by
  induction sources generalizing table selections with
  | nil =>
    cases extracted
    exact ⟨Supplies.refl records, by simp⟩
  | cons source others inductionHypothesis =>
    simp only [extractAll, Outcome.bind_eq_ok_iff] at extracted
    obtain ⟨⟨selection, middle⟩, first, ⟨later, last⟩, continued, returned⟩ := extracted
    cases returned
    obtain ⟨supplied, resolved⟩ := supplies_of_extract records first
    obtain ⟨suppliedLater, resolvedLater⟩ := inductionHypothesis supplied.records continued
    constructor
    · simpa [LoadedAddresses.merge] using supplied.trans suppliedLater
    · intro made member
      rcases List.mem_append.mp member with here | there
      · exact ⟨source, List.mem_cons_self, resolved made (by simpa using here)⟩
      · obtain ⟨other, inOthers, resolves⟩ := resolvedLater made there
        exact ⟨other, List.mem_cons_of_mem _ inOthers, resolves⟩

end KeyTable

/-- Among tables of pairwise distinct keys, a table is the first with its key. -/
theorem find?_key_eq_some {tables : List LookupTable} {source : LookupTable}
    (distinct : (tables.map LookupTable.key).Nodup) (supplied : source ∈ tables) :
    tables.find? (fun table => table.key == source.key) = some source := by
  induction tables with
  | nil => simp at supplied
  | cons first others inductionHypothesis =>
    rw [List.map_cons, List.nodup_cons] at distinct
    rcases List.mem_cons.mp supplied with rfl | later
    · simp
    · have different : first.key ≠ source.key := by
        intro same
        exact distinct.1 (same ▸ List.mem_map_of_mem later)
      rw [List.find?_cons_of_neg (by simpa using different)]
      exact inductionHypothesis distinct.2 later

/-- Resolving the selections that were made from tables of pairwise distinct keys gives the keys
that were taken out. -/
theorem loadAll_of_extractAll {tables : List LookupTable}
    {selections : List (TableLookup × LoadedAddresses)}
    (distinct : (tables.map LookupTable.key).Nodup)
    (resolved : ∀ made ∈ selections, ∃ source ∈ tables, KeyTable.ResolvesIn source made) :
    TableLookup.loadAll tables (selections.map Prod.fst) =
      .ok (LoadedAddresses.merge (selections.map Prod.snd)) := by
  have loaded : (selections.map Prod.fst).mapM (TableLookup.load tables) =
      .ok (selections.map Prod.snd) := by
    rw [Outcome.mapM_eq_ok_iff, List.forall₂_map_left_iff, List.forall₂_map_right_iff,
      List.forall₂_same]
    intro made member
    obtain ⟨source, supplied, resolves⟩ := resolved made member
    simp only [TableLookup.load, resolves.tableKey_eq, find?_key_eq_some distinct supplied,
      resolves.writable_eq, resolves.readonly_eq]
    rfl
  simp only [TableLookup.loadAll, loaded]
  rfl

/-- A selection counts what is loaded for it when it has one place for each key, in both groups. -/
structure TableLookup.Counts (lookup : TableLookup) (loaded : LoadedAddresses) : Prop where
  /-- There is a writable place for each writable key. -/
  writable_eq : lookup.writableIndexes.length = loaded.writable.length
  /-- There is a readonly place for each readonly key. -/
  readonly_eq : lookup.readonlyIndexes.length = loaded.readonly.length

/-- A selection counts what it resolves to. -/
theorem TableLookup.counts_of_load {tables : List LookupTable} {lookup : TableLookup}
    {loaded : LoadedAddresses} (resolved : load tables lookup = .ok loaded) :
    lookup.Counts loaded := by
  unfold load at resolved
  split at resolved
  · cases resolved
  · simp only [Outcome.bind_eq_ok_iff] at resolved
    obtain ⟨writable, writableLoaded, readonly, readonlyLoaded, returned⟩ := resolved
    cases returned
    exact ⟨((Outcome.mapM_eq_ok_iff _ _ _).mp writableLoaded).length_eq,
      ((Outcome.mapM_eq_ok_iff _ _ _).mp readonlyLoaded).length_eq⟩

/-- Selections count what they resolve to, one beside the other. -/
theorem TableLookup.counts_of_resolvesIn {tables : List LookupTable}
    {selections : List (TableLookup × LoadedAddresses)}
    (resolved : ∀ made ∈ selections, ∃ source ∈ tables, KeyTable.ResolvesIn source made) :
    List.Forall₂ TableLookup.Counts (selections.map Prod.fst) (selections.map Prod.snd) := by
  rw [List.forall₂_map_left_iff, List.forall₂_map_right_iff, List.forall₂_same]
  intro made member
  obtain ⟨source, _, resolves⟩ := resolved made member
  exact ⟨((Outcome.mapM_eq_ok_iff _ _ _).mp resolves.writable_eq).length_eq,
    ((Outcome.mapM_eq_ok_iff _ _ _).mp resolves.readonly_eq).length_eq⟩

/-- Selections that count what is loaded for each of them count what is loaded for all of them. -/
theorem LoadedAddresses.lengths_merge {lookups : List TableLookup} {parts : List LoadedAddresses}
    (beside : List.Forall₂ TableLookup.Counts lookups parts) :
    lookups.foldr (fun lookup total => lookup.writableIndexes.length + total) 0 =
        (merge parts).writable.length ∧
      lookups.foldr (fun lookup total => lookup.readonlyIndexes.length + total) 0 =
        (merge parts).readonly.length ∧
      lookups.foldr (fun lookup total => lookup.selected + total) 0 = (merge parts).length := by
  induction beside with
  | nil => exact ⟨rfl, rfl, rfl⟩
  | cons counts _ inductionHypothesis =>
    obtain ⟨writable, readonly, total⟩ := inductionHypothesis
    rw [List.foldr_cons, List.foldr_cons, List.foldr_cons, writable, readonly, total,
      TableLookup.selected, counts.writable_eq, counts.readonly_eq]
    simp only [LoadedAddresses.length, merge, List.map_cons, List.flatten_cons, List.length_append,
      true_and]
    omega

/-- What all selections resolve to is counted by each of them. -/
theorem TableLookup.exists_parts_of_loadAll {tables : List LookupTable}
    {lookups : List TableLookup} {loaded : LoadedAddresses}
    (resolved : loadAll tables lookups = .ok loaded) :
    ∃ parts, List.Forall₂ TableLookup.Counts lookups parts ∧
      loaded = LoadedAddresses.merge parts := by
  obtain ⟨parts, partsLoaded, returned⟩ := (Outcome.bind_eq_ok_iff _ _ _).mp resolved
  cases returned
  exact ⟨parts, ((Outcome.mapM_eq_ok_iff _ _ _).mp partsLoaded).imp fun _ _ => counts_of_load, rfl⟩

/-- A message loads as many writable keys as its lookups have writable places. -/
theorem V0Message.numLoadedWritable_eq {message : V0Message} {tables : List LookupTable}
    {loaded : LoadedAddresses} (resolved : message.loadAddresses tables = .ok loaded) :
    message.numLoadedWritable = loaded.writable.length := by
  obtain ⟨parts, counts, rfl⟩ := TableLookup.exists_parts_of_loadAll resolved
  exact (LoadedAddresses.lengths_merge counts).1

/-- A message loads as many keys as its lookups have places, whatever the tables hold. -/
theorem V0Message.numLoaded_eq {message : V0Message} {tables : List LookupTable}
    {loaded : LoadedAddresses} (resolved : message.loadAddresses tables = .ok loaded) :
    message.numLoaded = loaded.length := by
  obtain ⟨parts, counts, rfl⟩ := TableLookup.exists_parts_of_loadAll resolved
  exact (LoadedAddresses.lengths_merge counts).2.2

end Transact
