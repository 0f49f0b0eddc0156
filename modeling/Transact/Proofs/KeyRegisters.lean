import Transact.Compile.KeyRegister
import Transact.Proofs.CompileFaults
import Transact.Proofs.Rearrangement

/-!
# A register holds what a table holds

A register of keys mirrors a table of keys when both have the same payer and the same keys in the
same order, and the map holds for exactly these keys what is asked of them
(`KeyRegister.Mirrors`). Collecting keys makes a register that mirrors the collected table
(`KeyRegister.mirrors_ofInstructions`), and every later step keeps it so.

The step that differs most is the drain. A table of keys walks the lookup table and finds places in
ascending order; a register looks for each of its keys and sorts what it found. The two lists hold
the same entries, no two of them with the same place, so sorting leaves no choice
(`KeyRegister.mergeSort_indexed`). Any number of lookup tables therefore lead to the same outcome
(`KeyRegister.alike_extractAll`).
-/

namespace Transact.KeyRegister

open Outcome (FailsIff)

variable {register : KeyRegister} {table : KeyTable} {use : Address → KeyUse}

/-- The register and the table hold the same keys in the same order, with the same payer and the
same demands. -/
structure Mirrors (register : KeyRegister) (table : KeyTable) (use : Address → KeyUse) : Prop where
  /-- The same key pays. -/
  payer_eq : register.payer = table.payer
  /-- The same keys are held, in the same order. -/
  orderedKeys_eq : register.orderedKeys = table.keys
  /-- The map holds what is asked of these keys, and of no others. -/
  uses_eq : ∀ key : Address, register.uses[key]? = if key ∈ table.keys then some (use key) else none

section Collecting

variable {payer : Option Address} {mentioned : List (Address × KeyUse)}

/-- The demands that were made so far are collected: each key is held once, in the order of the
first demand on it, with everything that is asked of it. -/
structure Collected (register : KeyRegister) (payer : Option Address)
    (mentioned : List (Address × KeyUse)) : Prop where
  /-- The payer is known from the start. -/
  payer_eq : register.payer = payer
  /-- Each key stands where it was first demanded. -/
  orderedKeys_eq : register.orderedKeys = (mentioned.map Prod.fst).eraseDups
  /-- The map holds what is asked of each. -/
  uses_eq : ∀ key : Address, register.uses[key]? =
    if key ∈ mentioned.map Prod.fst then some (KeyTable.asked mentioned key) else none

/-- One demand more is collected with the others. A key that is new to the map is new to the order,
since both hold the keys that were demanded before. -/
theorem Collected.demand (collected : Collected register payer mentioned) (key : Address)
    (use : KeyUse) : Collected (register.demand key use) payer (mentioned ++ [(key, use)]) := by
  have entered : ∀ (uses : KeyUse) (other : Address),
      uses = (KeyTable.asked mentioned key).merge use →
      (register.uses.insert key uses)[other]? =
        if other ∈ (mentioned ++ [(key, use)]).map Prod.fst then
          some (KeyTable.asked (mentioned ++ [(key, use)]) other) else none := by
    rintro _ other rfl
    simp only [Std.TreeMap.getElem?_insert, Std.LawfulEqCmp.compare_eq_iff_eq, collected.uses_eq,
      KeyTable.asked_concat, List.map_append, List.map_singleton, List.mem_append,
      List.mem_singleton]
    by_cases same : other = key
    · subst same
      simp
    · simp only [same, Ne.symm same, or_false, if_false]
  by_cases known : key ∈ mentioned.map Prod.fst
  · have found : register.uses[key]? = some (KeyTable.asked mentioned key) := by
      rw [collected.uses_eq, if_pos known]
    rw [KeyRegister.demand, found]
    refine ⟨collected.payer_eq, ?_, fun other => entered _ other rfl⟩
    rw [List.map_append, List.map_singleton, eraseDups_concat, if_pos known]
    exact collected.orderedKeys_eq
  · have absent : register.uses[key]? = none := by rw [collected.uses_eq, if_neg known]
    have fresh : use = (KeyTable.asked mentioned key).merge use := by
      simp [KeyTable.asked_eq_of_not_mem mentioned key known, KeyUse.merge]
    rw [KeyRegister.demand, absent]
    refine ⟨collected.payer_eq, ?_, fun other => entered _ other fresh⟩
    rw [List.map_append, List.map_singleton, eraseDups_concat, if_neg known]
    exact congrArg (· ++ [key]) collected.orderedKeys_eq

/-- Demands are collected one after the other. -/
theorem Collected.demandAll (collected : Collected register payer mentioned)
    (later : List (Address × KeyUse)) :
    Collected (register.demandAll later) payer (mentioned ++ later) := by
  induction later generalizing register mentioned with
  | nil => simpa [KeyRegister.demandAll] using collected
  | cons next rest inductionHypothesis =>
    have behind := inductionHypothesis (collected.demand next.1 next.2)
    rwa [List.append_assoc] at behind

/-- The register of the keys of instructions mirrors their table. -/
theorem mirrors_ofInstructions (payer : Option Address) (instructions : List Instruction) :
    (ofInstructions payer instructions).Mirrors (KeyTable.ofInstructions payer instructions)
      (Mentions.use payer instructions) := by
  have started : Collected ⟨KeyTable.effectivePayer payer, [], ∅⟩
      (KeyTable.effectivePayer payer) [] := ⟨rfl, rfl, by simp⟩
  have collected := started.demandAll (instructions.flatMap KeyTable.references ++
    (KeyTable.effectivePayer payer).toList.map fun key => (key, KeyUse.paying))
  rw [List.nil_append] at collected
  refine ⟨collected.payer_eq, ?_, fun key => ?_⟩
  · rw [KeyTable.keys_ofInstructions, ← KeyTable.map_fst_mentioned]
    exact collected.orderedKeys_eq
  · simp only [KeyTable.keys_ofInstructions, List.mem_eraseDups, ← KeyTable.map_fst_mentioned,
      ← KeyTable.asked_mentioned]
    exact collected.uses_eq key

end Collecting

namespace Mirrors

/-- The map holds a key exactly when the order does. -/
theorem mem_uses_iff (mirrors : register.Mirrors table use) (key : Address) :
    key ∈ register.uses ↔ key ∈ register.orderedKeys := by
  rw [← Std.TreeMap.isSome_getElem?_iff_mem, mirrors.uses_eq, mirrors.orderedKeys_eq]
  split <;> simp [*]

/-- The same keys are selected, in the same order. -/
theorem select_eq (mirrors : register.Mirrors table use) (records : table.Records use)
    (wanted : KeyUse → Bool) : register.select wanted = table.select wanted := by
  rw [records.select_eq, select, mirrors.orderedKeys_eq, mirrors.payer_eq]
  apply List.filter_congr
  intro key member
  rw [mirrors.uses_eq, if_pos member, Option.any_some]

/-- Erasing keys from the map leaves what is asked of the others. -/
theorem getElem?_foldl_erase (uses : Std.TreeMap Address KeyUse) (taken : List Address)
    (key : Address) : (taken.foldl (fun uses key => uses.erase key) uses)[key]? =
      if key ∈ taken then none else uses[key]? := by
  induction taken generalizing uses with
  | nil => simp
  | cons first rest inductionHypothesis =>
    simp only [List.foldl_cons, inductionHypothesis, Std.TreeMap.getElem?_erase,
      Std.LawfulEqCmp.compare_eq_iff_eq, List.mem_cons]
    by_cases same : first = key
    · simp [same]
    · simp [same, Ne.symm same]

/-- Removing keys from the register is removing them from the table: what the map still holds is
what was not removed. -/
theorem remove (mirrors : register.Mirrors table use) (taken : List Address) :
    (register.remove taken).Mirrors (table.without taken) use := by
  have left : ∀ key : Address,
      (taken.foldl (fun uses key => uses.erase key) register.uses)[key]? =
        if key ∈ (table.without taken).keys then some (use key) else none := by
    intro key
    simp only [getElem?_foldl_erase, mirrors.uses_eq, KeyTable.keys_without, List.mem_filter]
    by_cases gone : key ∈ taken <;> simp [gone]
  refine ⟨mirrors.payer_eq, ?_, left⟩
  rw [KeyTable.keys_without, KeyRegister.remove, mirrors.orderedKeys_eq]
  apply List.filter_congr
  intro key member
  rw [Bool.eq_iff_iff, ← Std.TreeMap.mem_iff_contains, ← Std.TreeMap.isSome_getElem?_iff_mem, left]
  simp only [KeyTable.keys_without, List.mem_filter]
  by_cases gone : key ∈ taken <;> simp [gone, member]

end Mirrors

section Draining

variable {addresses : List Address} {wanted : KeyUse → Bool}

/-- What is found for the keys is what is noted on a walk, up to order. -/
theorem found_perm (mirrors : register.Mirrors table use) (records : table.Records use) :
    (register.found addresses wanted).Perm
      (KeyTable.positions 0 (table.select wanted) addresses) := by
  have unique := records.nodup_select wanted
  have foundOnce : (register.found addresses wanted).Nodup := by
    rw [found, mirrors.select_eq records]
    refine List.Nodup.filterMap ?_ unique
    rintro key other entry noted again
    obtain ⟨_, _, rfl⟩ := Option.map_eq_some_iff.mp noted
    obtain ⟨_, _, same⟩ := Option.map_eq_some_iff.mp again
    exact (Prod.mk.inj same).2.symm
  have notedOnce := List.Nodup.of_map _ (KeyTable.nodup_positions 0 addresses unique)
  rw [List.perm_ext_iff_of_nodup foundOnce notedOnce]
  rintro ⟨place, key⟩
  rw [KeyTable.mem_positions_iff 0 addresses unique, found, mirrors.select_eq records,
    List.mem_filterMap, Nat.sub_zero, and_iff_right (Nat.zero_le place)]
  constructor
  · rintro ⟨other, selected, noted⟩
    obtain ⟨_, first, same⟩ := Option.map_eq_some_iff.mp noted
    cases same
    exact ⟨selected, first⟩
  · rintro ⟨selected, first⟩
    exact ⟨key, selected, Option.map_eq_some_iff.mpr ⟨place, first, rfl⟩⟩

/-- An entry with its place as a byte. -/
def byteEntry (entry : Nat × Address) : UInt8 × Address := (UInt8.ofNat entry.1, entry.2)

/-- What was found, sorted by the bytes of the places, is what is noted on a walk. The places of a
walk ascend, and so do their bytes as long as each of them fits. -/
theorem mergeSort_indexed {found noted : List (Nat × Address)} (permuted : found.Perm noted)
    (ascending : (noted.map Prod.fst).Pairwise (· < ·))
    (fits : ∀ entry ∈ noted, entry.1 ≤ 255) :
    (found.map byteEntry).mergeSort (fun first second => decide (first.1 ≤ second.1)) =
      noted.map byteEntry := by
  have stands : ∀ entry ∈ noted, (byteEntry entry).1.toNat = entry.1 := by
    intro entry member
    rw [byteEntry, UInt8.toNat_ofNat']
    exact Nat.mod_eq_of_lt (Nat.lt_succ_of_le (fits entry member))
  have bytesPerm : ((found.map byteEntry).mergeSort fun first second =>
      decide (first.1 ≤ second.1)).Perm (noted.map byteEntry) :=
    (List.mergeSort_perm _ _).trans (permuted.map byteEntry)
  have sorted : ((found.map byteEntry).mergeSort fun first second =>
      decide (first.1 ≤ second.1)).Pairwise fun first second => first.1 ≤ second.1 := by
    refine (List.pairwise_mergeSort ?_ ?_ _).imp of_decide_eq_true
    · simpa using fun _ _ _ => UInt8.le_trans
    · simpa using fun _ _ => UInt8.le_total _ _
  have notedSorted : (noted.map byteEntry).Pairwise fun first second => first.1 ≤ second.1 := by
    rw [List.pairwise_map] at ascending ⊢
    refine ascending.imp_of_mem ?_
    intro first second firstMember secondMember below
    rw [UInt8.le_iff_toNat_le, stands first firstMember, stands second secondMember]
    exact Nat.le_of_lt below
  refine bytesPerm.eq_of_pairwise ?_ sorted notedSorted
  -- Entries with the same byte have the same place, and no two of a walk do.
  intro first second inSorted inNoted below above
  obtain ⟨entry, member, rfl⟩ := List.mem_map.mp (bytesPerm.mem_iff.mp inSorted)
  obtain ⟨other, otherMember, rfl⟩ := List.mem_map.mp inNoted
  have samePlace : entry.1 = other.1 := by
    rw [← stands entry member, ← stands other otherMember]
    exact congrArg UInt8.toNat (UInt8.le_antisymm below above)
  have distinct : (noted.map Prod.fst).Nodup := ascending.imp Nat.ne_of_lt
  rw [List.inj_on_of_nodup_map distinct member otherMember samePlace]

/-- The place of an entry is refused exactly when it does not fit in a byte. -/
theorem failsIff_indexed (entry : Nat × Address) :
    FailsIff (indexed entry) .addressTableLookupIndexOverflow (255 < entry.1) :=
  (KeyTable.failsIff_indexByte entry.1).map

/-- Writing the places of what was found and sorting it comes to the same as writing the places of a
walk in their order. Either all places fit, or some place on both sides does not. -/
theorem alike_indexed {found noted : List (Nat × Address)} (permuted : found.Perm noted)
    (ascending : (noted.map Prod.fst).Pairwise (· < ·)) :
    Outcome.Alike (fun entries indexes =>
        (entries.mergeSort fun first second => decide (first.1 ≤ second.1)).map Prod.fst = indexes ∧
        (entries.mergeSort fun first second => decide (first.1 ≤ second.1)).map Prod.snd =
          noted.map Prod.snd)
      (found.mapM indexed) (noted.mapM fun entry => KeyTable.indexByte entry.1) := by
  by_cases fits : ∀ entry ∈ noted, entry.1 ≤ 255
  · have writes : ∀ entry ∈ noted, KeyTable.indexByte entry.1 = .ok (byteEntry entry).1 :=
      fun entry member => if_pos (fits entry member)
    have foundIndexed : found.mapM indexed = .ok (found.map byteEntry) :=
      Outcome.mapM_eq_map fun entry member => by
        rw [indexed, writes entry (permuted.mem_iff.mp member)]
        rfl
    rw [foundIndexed, Outcome.mapM_eq_map writes]
    apply Outcome.Alike.succeeded
    rw [mergeSort_indexed permuted ascending fits, List.map_map, List.map_map]
    exact ⟨rfl, rfl⟩
  · obtain ⟨entry, member, far⟩ : ∃ entry ∈ noted, 255 < entry.1 := by simpa using fits
    have foundFails : FailsIff (found.mapM indexed) .addressTableLookupIndexOverflow
        (∃ entry ∈ found, 255 < entry.1) := .mapM fun entry _ => failsIff_indexed entry
    have notedFails : FailsIff (noted.mapM fun entry => KeyTable.indexByte entry.1)
        .addressTableLookupIndexOverflow (∃ entry ∈ noted, 255 < entry.1) :=
      .mapM fun entry _ => KeyTable.failsIff_indexByte entry.1
    rw [foundFails.eq_error ⟨entry, permuted.mem_iff.mpr member, far⟩,
      notedFails.eq_error ⟨entry, member, far⟩]
    exact .failed _

/-- Draining a register and draining the table that it mirrors lead to the same places and keys, and
what is left mirrors what is left. -/
theorem alike_drain (mirrors : register.Mirrors table use) (records : table.Records use)
    (addresses : List Address) (wanted : KeyUse → Bool) :
    Outcome.Alike (fun drained other => drained.1 = other.1 ∧ drained.2.1 = other.2.1 ∧
      drained.2.2.Mirrors other.2.2 use) (register.drain addresses wanted)
      (table.drain addresses wanted) := by
  rw [drain, KeyTable.drain]
  refine (alike_indexed (found_perm mirrors records) (KeyTable.ascending_positions 0 _ _)).bind ?_
  rintro entries indexes _ _ ⟨indexes_eq, taken_eq⟩
  exact .succeeded ⟨indexes_eq, taken_eq, taken_eq ▸ mirrors.remove _⟩

end Draining

/-- A lookup table supplies the same of a register and of the table that it mirrors. -/
theorem alike_extract (mirrors : register.Mirrors table use) (records : table.Records use)
    (source : LookupTable) :
    Outcome.Alike (fun extracted other => extracted.1 = other.1 ∧ extracted.2.Mirrors other.2 use)
      (register.extract source) (table.extract source) := by
  rw [extract, KeyTable.extract]
  refine (alike_drain mirrors records _ _).bind ?_
  rintro ⟨writableIndexes, writable, middle⟩ ⟨_, _, middleTable⟩ _ drained ⟨rfl, rfl, middleMirrors⟩
  have middleRecords := (KeyTable.records_of_drain records drained).1
  refine (alike_drain middleMirrors middleRecords _ _).bind ?_
  rintro ⟨readonlyIndexes, readonly, rest⟩ ⟨_, _, restTable⟩ _ _ ⟨rfl, rfl, restMirrors⟩
  dsimp only
  split
  · exact .succeeded ⟨rfl, restMirrors⟩
  · exact .succeeded ⟨rfl, restMirrors⟩

/-- Lookup tables one after the other supply the same of a register and of the table that it
mirrors. -/
theorem alike_extractAll (mirrors : register.Mirrors table use) (records : table.Records use)
    (sources : List LookupTable) :
    Outcome.Alike (fun extracted other => extracted.1 = other.1 ∧ extracted.2.Mirrors other.2 use)
      (register.extractAll sources) (table.extractAll sources) := by
  induction sources generalizing register table with
  | nil => exact .succeeded ⟨rfl, mirrors⟩
  | cons source others inductionHypothesis =>
    rw [extractAll, KeyTable.extractAll]
    refine (alike_extract mirrors records source).bind ?_
    rintro ⟨selection, middle⟩ ⟨_, middleTable⟩ _ extracted ⟨rfl, middleMirrors⟩
    have middleRecords := (KeyTable.supplies_of_extract records extracted).1.records
    refine (inductionHypothesis middleMirrors middleRecords).bind ?_
    rintro ⟨selections, rest⟩ ⟨_, restTable⟩ _ _ ⟨rfl, restMirrors⟩
    exact .succeeded ⟨rfl, restMirrors⟩

end Transact.KeyRegister
