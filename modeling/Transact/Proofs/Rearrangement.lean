import Mathlib.Data.List.Perm.Basic
import Transact.Proofs.Compilation

/-!
# Compilation does not depend on the order of references

Two lists of instructions that differ only in the order of the instructions and of the accounts of
each mention the same keys and ask the same of every key (`Instruction.Rearranged`). The tables of
keys collected from them differ in order alone (`KeyTable.Alike`), and every step of compilation
keeps them so: a lookup table supplies the same keys from the same places, since places come out in
the order of the table, and the groups of what is left have the same sizes.

The main statement, `Message.alike_of_rearranged`, is that both formats either fail with the same
fault or give messages with the same header and lookups whose keys differ only in order, within each
group.
-/

namespace Transact

/-- Two outcomes are alike when both are the same fault or both are values of which the one is
related to the other. -/
inductive Outcome.Alike {fault α β : Type} (related : α → β → Prop) :
    Except fault α → Except fault β → Prop
  /-- Both failed. -/
  | failed (cause : fault) : Alike related (.error cause) (.error cause)
  /-- Both gave a value. -/
  | succeeded {first : α} {second : β} (held : related first second) :
    Alike related (.ok first) (.ok second)

namespace Outcome

variable {fault α β γ δ : Type} {related : α → β → Prop} {after : γ → δ → Prop}

/-- Outcomes that are alike can be continued by steps that are alike wherever both get there. -/
theorem Alike.bind {first : Except fault α} {second : Except fault β}
    {next : α → Except fault γ} {other : β → Except fault δ} (alike : Alike related first second)
    (steps : ∀ value result, first = .ok value → second = .ok result → related value result →
      Alike after (next value) (other result)) :
    Alike after (first >>= next) (second >>= other) := by
  cases alike with
  | failed cause => exact .failed cause
  | succeeded held => exact steps _ _ rfl rfl held

/-- What is known of the values may be taken from where they come from. -/
theorem Alike.mono {stronger : α → β → Prop} {first : Except fault α} {second : Except fault β}
    (alike : Alike related first second)
    (known : ∀ value result, first = .ok value → second = .ok result → related value result →
      stronger value result) : Alike stronger first second := by
  cases alike with
  | failed cause => exact .failed cause
  | succeeded held => exact .succeeded (known _ _ rfl rfl held)

/-- What is alike to a value is a value that is related to it. -/
theorem Alike.exists_right {first : Except fault α} {second : Except fault β} {value : α}
    (alike : Alike related first second) (succeeded : first = .ok value) :
    ∃ result, second = .ok result ∧ related value result := by
  cases alike with
  | failed cause => cases succeeded
  | succeeded held =>
    cases succeeded
    exact ⟨_, rfl, held⟩

/-- A value is alike only to a value that is related to it. -/
theorem Alike.exists_left {first : Except fault α} {second : Except fault β} {result : β}
    (alike : Alike related first second) (succeeded : second = .ok result) :
    ∃ value, first = .ok value ∧ related value result := by
  cases alike with
  | failed cause => cases succeeded
  | succeeded held =>
    cases succeeded
    exact ⟨_, rfl, held⟩

/-- An outcome is alike to itself. -/
theorem Alike.refl (outcome : Except fault α) : Alike Eq outcome outcome := by
  cases outcome with
  | error cause => exact .failed cause
  | ok value => exact .succeeded rfl

end Outcome

namespace Instruction

/-- The same instruction, up to the order of its accounts. -/
structure Reorders (first second : Instruction) : Prop where
  /-- It runs the same program. -/
  programId_eq : first.programId = second.programId
  /-- It hands over the same accounts. -/
  accounts_perm : first.accounts.Perm second.accounts
  /-- It has the same input. -/
  data_eq : first.data = second.data

/-- The same instructions, up to their order and the order of the accounts of each. -/
def Rearranged (first second : List Instruction) : Prop :=
  ∃ middle, first.Perm middle ∧ List.Forall₂ Reorders middle second

/-- Rearranged instructions refer to the same keys and ask the same of them. -/
theorem Rearranged.references_perm {first second : List Instruction}
    (rearranged : Rearranged first second) :
    (first.flatMap KeyTable.references).Perm (second.flatMap KeyTable.references) := by
  obtain ⟨middle, permuted, reordered⟩ := rearranged
  refine (permuted.flatMap_right KeyTable.references).trans ?_
  clear permuted
  induction reordered with
  | nil => exact .nil
  | @cons one other _ _ reorders _ inductionHypothesis =>
    have references : (KeyTable.references one).Perm (KeyTable.references other) := by
      rw [KeyTable.references, KeyTable.references, reorders.programId_eq]
      exact (reorders.accounts_perm.map _).cons _
    rw [List.flatMap_cons, List.flatMap_cons]
    exact references.append inductionHypothesis

/-- Rearranged instructions are as many. -/
theorem Rearranged.isEmpty_eq {first second : List Instruction}
    (rearranged : Rearranged first second) : first.isEmpty = second.isEmpty := by
  obtain ⟨middle, permuted, reordered⟩ := rearranged
  rw [Bool.eq_iff_iff, List.isEmpty_iff_length_eq_zero, List.isEmpty_iff_length_eq_zero,
    permuted.length_eq, reordered.length_eq]

end Instruction

namespace KeyTable

variable {first second : KeyTable}

/-- Two tables hold the same keys with the same demands and the same payer, up to order. -/
structure Alike (first second : KeyTable) : Prop where
  /-- The same key pays. -/
  payer_eq : first.payer = second.payer
  /-- The same keys are held. -/
  entries_perm : first.entries.Perm second.entries

/-- What is asked of a key does not depend on the order of the demands. -/
theorem asked_eq_of_perm {mentioned others : List (Address × KeyUse)}
    (permuted : mentioned.Perm others) : asked mentioned = asked others := by
  funext key
  simp only [asked, KeyUse.mk.injEq]
  exact ⟨permuted.any_eq, permuted.any_eq, permuted.any_eq⟩

/-- Rearranged instructions give tables that are alike. -/
theorem alike_ofInstructions {instructions others : List Instruction} (payer : Option Address)
    (rearranged : Instruction.Rearranged instructions others) :
    (ofInstructions payer instructions).Alike (ofInstructions payer others) where
  payer_eq := rfl
  entries_perm := by
    have mentioned := rearranged.references_perm.append_right
      ((effectivePayer payer).toList.map fun key => (key, KeyUse.paying))
    have keys := mentioned.map Prod.fst
    simp only [ofInstructions, foldl_demand, asked_eq_of_perm mentioned]
    refine List.Perm.map _ ((List.perm_ext_iff_of_nodup (nodup_eraseDups _)
      (nodup_eraseDups _)).mpr fun key => ?_)
    rw [List.mem_eraseDups, List.mem_eraseDups, keys.mem_iff]

namespace Alike

/-- Keys of a certain use are the same, up to order. -/
theorem select_perm (alike : first.Alike second) (wanted : KeyUse → Bool) :
    (first.select wanted).Perm (second.select wanted) := by
  rw [select, select, alike.payer_eq]
  exact (alike.entries_perm.filter _).map _

/-- The payer heads the writable signers of both tables. -/
theorem writableSigners_perm (alike : first.Alike second) :
    first.writableSigners.Perm second.writableSigners := by
  rw [writableSigners, writableSigners, alike.payer_eq]
  exact (alike.select_perm _).append_left _

/-- Taking out the same keys leaves tables that are alike. -/
theorem without (alike : first.Alike second) (taken : List Address) :
    (first.without taken).Alike (second.without taken) where
  payer_eq := alike.payer_eq
  entries_perm := alike.entries_perm.filter _

end Alike

/-- Where wanted keys stand in a lookup table does not depend on the order in which they are
wanted. -/
theorem positions_eq_of_perm {wanted others : List Address} (permuted : wanted.Perm others)
    (start : Nat) (addresses : List Address) :
    positions start wanted addresses = positions start others addresses := by
  induction addresses generalizing start wanted others with
  | nil => rfl
  | cons address rest inductionHypothesis =>
    have contained : wanted.contains address = others.contains address := by
      rw [Bool.eq_iff_iff, List.contains_iff_mem, List.contains_iff_mem, permuted.mem_iff]
    rw [positions, positions, contained, inductionHypothesis (permuted.erase address),
      inductionHypothesis permuted]

/-- Tables that are alike are drained of the same keys from the same places. -/
theorem alike_drain (alike : first.Alike second) (addresses : List Address)
    (wanted : KeyUse → Bool) :
    Outcome.Alike (fun drained other => drained.1 = other.1 ∧ drained.2.1 = other.2.1 ∧
      drained.2.2.Alike other.2.2) (first.drain addresses wanted)
      (second.drain addresses wanted) := by
  rw [drain, drain, positions_eq_of_perm (alike.select_perm wanted)]
  refine (Outcome.Alike.refl _).bind ?_
  rintro indexes _ _ _ rfl
  exact .succeeded ⟨rfl, rfl, alike.without _⟩

/-- A lookup table supplies the same of tables that are alike. -/
theorem alike_extract (alike : first.Alike second) (source : LookupTable) :
    Outcome.Alike (fun extracted other => extracted.1 = other.1 ∧ extracted.2.Alike other.2)
      (first.extract source) (second.extract source) := by
  rw [extract, extract]
  refine (alike_drain alike _ _).bind ?_
  rintro ⟨writableIndexes, writable, middle⟩ ⟨_, _, otherMiddle⟩ _ _ ⟨rfl, rfl, middleAlike⟩
  refine (alike_drain middleAlike _ _).bind ?_
  rintro ⟨readonlyIndexes, readonly, rest⟩ ⟨_, _, otherRest⟩ _ _ ⟨rfl, rfl, restAlike⟩
  dsimp only
  split
  · exact .succeeded ⟨rfl, restAlike⟩
  · exact .succeeded ⟨rfl, restAlike⟩

/-- Lookup tables one after the other supply the same of tables that are alike. -/
theorem alike_extractAll (alike : first.Alike second) (sources : List LookupTable) :
    Outcome.Alike (fun extracted other => extracted.1 = other.1 ∧ extracted.2.Alike other.2)
      (first.extractAll sources) (second.extractAll sources) := by
  induction sources generalizing first second with
  | nil => exact .succeeded ⟨rfl, alike⟩
  | cons source others inductionHypothesis =>
    rw [extractAll, extractAll]
    refine (alike_extract alike source).bind ?_
    rintro ⟨selection, middle⟩ ⟨_, otherMiddle⟩ _ _ ⟨rfl, middleAlike⟩
    refine (inductionHypothesis middleAlike).bind ?_
    rintro ⟨selections, rest⟩ ⟨_, otherRest⟩ _ _ ⟨rfl, restAlike⟩
    exact .succeeded ⟨rfl, restAlike⟩

end KeyTable

/-- The four groups into which a header divides keys: the signers, of which the last are readonly,
and the others, of which the last are readonly. -/
def MessageHeader.groups (header : MessageHeader) (keys : List Address) : List (List Address) :=
  let signers := keys.take header.signers
  let others := keys.drop header.signers
  let writableSigners := header.signers - header.readonlySigners
  let writableOthers := others.length - header.readonlyOthers
  [signers.take writableSigners, signers.drop writableSigners,
    others.take writableOthers, others.drop writableOthers]

namespace KeyTable

variable {first second : KeyTable}

/-- A header divides the keys that it was laid out with into the groups of the table. -/
theorem LaidOut.groups_eq {table : KeyTable} {header : MessageHeader} {keys : List Address}
    (laid : table.LaidOut header keys) :
    header.groups keys = [table.writableSigners, table.readonlySigners, table.writableOthers,
      table.readonlyOthers] := by
  have writableSigners : header.signers - header.readonlySigners =
      table.writableSigners.length := by
    rw [laid.signers, laid.readonlySigners, Nat.add_sub_cancel]
  have writableOthers : (table.writableOthers ++ table.readonlyOthers).length -
      header.readonlyOthers = table.writableOthers.length := by
    rw [laid.readonlyOthers, List.length_append, Nat.add_sub_cancel]
  simp only [MessageHeader.groups, laid.take_signers, laid.drop_signers, writableSigners,
    writableOthers, List.take_left, List.drop_left]

/-- Tables that are alike are laid out with the same header, and their groups are the same up to
order. -/
theorem alike_layOut (alike : first.Alike second) :
    Outcome.Alike (fun laid other => laid.1 = other.1 ∧
      List.Forall₂ List.Perm (laid.1.groups laid.2) (other.1.groups other.2))
      first.layOut second.layOut := by
  have writableSigners := alike.writableSigners_perm
  have readonlySigners : first.readonlySigners.Perm second.readonlySigners := alike.select_perm _
  have writableOthers : first.writableOthers.Perm second.writableOthers := alike.select_perm _
  have readonlyOthers : first.readonlyOthers.Perm second.readonlyOthers := alike.select_perm _
  have headers : Outcome.Alike (fun laid other => laid.1 = other.1) first.layOut second.layOut := by
    simp only [layOut, writableSigners.length_eq, readonlySigners.length_eq,
      readonlyOthers.length_eq]
    refine (Outcome.Alike.refl _).bind ?_
    rintro signers _ _ _ rfl
    refine (Outcome.Alike.refl _).bind ?_
    rintro readonlySigners _ _ _ rfl
    refine (Outcome.Alike.refl _).bind ?_
    rintro readonlyOthers _ _ _ rfl
    exact .succeeded rfl
  refine headers.mono ?_
  rintro ⟨header, keys⟩ ⟨_, others⟩ laid otherLaid rfl
  rw [(laidOut_of_layOut laid).groups_eq, (laidOut_of_layOut otherLaid).groups_eq]
  exact ⟨rfl, .cons writableSigners (.cons readonlySigners (.cons writableOthers
    (.cons readonlyOthers .nil)))⟩

end KeyTable

namespace AccountKeys

/-- Giving out places fails only for the number of the keys, as long as they hold all mentioned
ones. -/
theorem alike_compile {first second : AccountKeys} {instructions others : List Instruction}
    (length_eq : first.toList.length = second.toList.length)
    (held : ∀ key ∈ Mentions.ofInstructions instructions, key ∈ first.toList)
    (othersHeld : ∀ key ∈ Mentions.ofInstructions others, key ∈ second.toList) :
    Outcome.Alike (fun _ _ => True) (first.compile instructions) (second.compile others) := by
  by_cases crowded : 256 < first.toList.length
  · rw [compile_of_crowded crowded, compile_of_crowded (length_eq ▸ crowded)]
    exact .failed _
  · obtain ⟨compiled, made⟩ := exists_compile (Nat.le_of_not_lt crowded) held
    obtain ⟨other, otherMade⟩ := exists_compile (length_eq ▸ Nat.le_of_not_lt crowded) othersHeld
    rw [made, otherMade]
    exact .succeeded trivial

end AccountKeys

/-- A header's groups are all of the keys, in order. -/
theorem MessageHeader.flatten_groups (header : MessageHeader) (keys : List Address) :
    (header.groups keys).flatten = keys := by
  simp only [groups, List.flatten_cons, List.flatten_nil, List.append_nil]
  rw [← List.append_assoc, List.take_append_drop, List.take_append_drop, List.take_append_drop]

/-- Groups that are the same up to order are the same keys. -/
theorem MessageHeader.perm_of_groups {header other : MessageHeader} {keys others : List Address}
    (groups : List.Forall₂ List.Perm (header.groups keys) (other.groups others)) :
    keys.Perm others := by
  rw [← header.flatten_groups keys, ← other.flatten_groups others]
  exact List.Perm.flatten_congr groups

/-- Two messages have the same header, and the same keys up to the order within each group. -/
structure LegacyMessage.Reordered (first second : LegacyMessage) : Prop where
  /-- The headers are the same. -/
  header_eq : first.header = second.header
  /-- The keys are the same. -/
  accountKeys_perm : first.accountKeys.Perm second.accountKeys
  /-- The keys of each group are the same. -/
  groups_perm : List.Forall₂ List.Perm (first.header.groups first.accountKeys)
    (second.header.groups second.accountKeys)

/-- The keys left in tables that are alike are laid out and given places alike, whatever message is
made of them. -/
theorem KeyTable.alike_components {first second : KeyTable} {instructions others : List Instruction}
    {loaded : Option LoadedAddresses} {recentBlockhash : Hash} {α : Type} {related : α → α → Prop}
    (make : LegacyMessage → α) (alike : first.Alike second)
    (held : ∀ header keys, first.LaidOut header keys →
      ∀ key ∈ Mentions.ofInstructions instructions, key ∈ AccountKeys.toList ⟨keys, loaded⟩)
    (othersHeld : ∀ header keys, second.LaidOut header keys →
      ∀ key ∈ Mentions.ofInstructions others, key ∈ AccountKeys.toList ⟨keys, loaded⟩)
    (made : ∀ message other : LegacyMessage, message.Reordered other →
      related (make message) (make other)) :
    Outcome.Alike related
      (do
        let (header, accountKeys) ← first.layOut
        let instructions ← AccountKeys.compile ⟨accountKeys, loaded⟩ instructions
        return make { header, accountKeys, recentBlockhash, instructions })
      (do
        let (header, accountKeys) ← second.layOut
        let instructions ← AccountKeys.compile ⟨accountKeys, loaded⟩ others
        return make { header, accountKeys, recentBlockhash, instructions }) := by
  refine (alike_layOut alike).bind ?_
  rintro ⟨header, keys⟩ ⟨_, otherKeys⟩ laid otherLaid ⟨rfl, groups⟩
  have keys_perm := MessageHeader.perm_of_groups groups
  have length_eq : (AccountKeys.toList ⟨keys, loaded⟩).length =
      (AccountKeys.toList ⟨otherKeys, loaded⟩).length := by
    cases loaded <;> simp [keys_perm.length_eq]
  refine (AccountKeys.alike_compile length_eq (held header keys (laidOut_of_layOut laid))
    (othersHeld header otherKeys (laidOut_of_layOut otherLaid))).bind ?_
  intro compiled otherCompiled _ _ _
  exact .succeeded (made _ _ ⟨rfl, keys_perm, groups⟩)

/-- The keys that instructions mention are collected. -/
theorem KeyTable.mem_keys_of_mem {payer : Option Address} {instructions : List Instruction}
    {key : Address} (mentioned : key ∈ Mentions.ofInstructions instructions) :
    key ∈ (ofInstructions payer instructions).keys :=
  mem_keys_ofInstructions.mpr ((Mentions.isMentioned_iff payer instructions key).mpr
    (Or.inr mentioned))

/-- Rearranged instructions are compiled into legacy messages that differ only in the order of keys
within a group, or fail alike. -/
theorem LegacyMessage.alike_compile {first second : List Instruction} (payer : Option Address)
    (recentBlockhash : Hash) (rearranged : Instruction.Rearranged first second) :
    Outcome.Alike LegacyMessage.Reordered (LegacyMessage.compile payer first recentBlockhash)
      (LegacyMessage.compile payer second recentBlockhash) := by
  have held : ∀ instructions header keys,
      (KeyTable.ofInstructions payer instructions).LaidOut header keys →
      ∀ key ∈ Mentions.ofInstructions instructions, key ∈ AccountKeys.toList ⟨keys, none⟩ := by
    intro instructions header keys laid key mentioned
    rw [AccountKeys.toList_none, laid.mem_iff (KeyTable.records_ofInstructions payer instructions)]
    exact KeyTable.mem_keys_of_mem mentioned
  unfold LegacyMessage.compile
  rw [rearranged.isEmpty_eq]
  cases second.isEmpty with
  | true => exact .failed _
  | false =>
    exact KeyTable.alike_components id (KeyTable.alike_ofInstructions payer rearranged)
      (held first) (held second) fun _ _ reordered => reordered

/-- Rearranged instructions are compiled into version 0 messages that have the same lookups and
differ only in the order of keys within a group, or fail alike. -/
theorem V0Message.alike_compile {first second : List Instruction} (payer : Option Address)
    (tables : List LookupTable) (recentBlockhash : Hash)
    (rearranged : Instruction.Rearranged first second) :
    Outcome.Alike (fun message other : V0Message =>
        message.toLegacyMessage.Reordered other.toLegacyMessage ∧
          message.addressTableLookups = other.addressTableLookups)
      (V0Message.compile payer first tables recentBlockhash)
      (V0Message.compile payer second tables recentBlockhash) := by
  -- Whatever the tables supplied, all mentioned keys are left or loaded.
  have held : ∀ instructions selections rest,
      (KeyTable.ofInstructions payer instructions).extractAll tables = .ok (selections, rest) →
      ∀ header keys, rest.LaidOut header keys → ∀ key ∈ Mentions.ofInstructions instructions,
        key ∈ AccountKeys.toList
          ⟨keys, some (LoadedAddresses.merge (selections.map Prod.snd))⟩ := by
    intro instructions selections rest extracted header keys laid key mentioned
    have supplied := (KeyTable.supplies_of_extractAll
      (KeyTable.records_ofInstructions payer instructions) extracted).1
    rw [AccountKeys.toList_some, supplied.mem_laidOut_iff laid]
    exact KeyTable.mem_keys_of_mem mentioned
  unfold V0Message.compile
  rw [rearranged.isEmpty_eq]
  cases second.isEmpty with
  | true => exact .failed _
  | false =>
    refine (KeyTable.alike_extractAll (KeyTable.alike_ofInstructions payer rearranged) tables).bind
      ?_
    rintro ⟨selections, rest⟩ ⟨_, otherRest⟩ extracted otherExtracted ⟨rfl, restAlike⟩
    exact KeyTable.alike_components
      (fun message : LegacyMessage => V0Message.mk message (selections.map Prod.fst)) restAlike
      (held first selections rest extracted) (held second selections otherRest otherExtracted)
      fun _ _ reordered => ⟨reordered, rfl⟩

/-- Compilation depends on the order of references in nothing but the order of keys: instructions
that differ only in their order and in the order of the accounts of each fail with the same fault,
or give messages with the same header, the same lookups, and in each group the same keys. -/
theorem Message.alike_of_rearranged (payer : Option Address) (first second : List Instruction)
    (recentBlockhash : Hash) (rearranged : Instruction.Rearranged first second) :
    Outcome.Alike LegacyMessage.Reordered (LegacyMessage.compile payer first recentBlockhash)
      (LegacyMessage.compile payer second recentBlockhash) ∧
    ∀ tables : List LookupTable,
      Outcome.Alike (fun message other : V0Message =>
          message.toLegacyMessage.Reordered other.toLegacyMessage ∧
            message.addressTableLookups = other.addressTableLookups)
        (V0Message.compile payer first tables recentBlockhash)
        (V0Message.compile payer second tables recentBlockhash) :=
  ⟨LegacyMessage.alike_compile payer recentBlockhash rearranged,
    fun tables => V0Message.alike_compile payer tables recentBlockhash rearranged⟩

/-- Two instructions of two programs. The second account is written by the first only. -/
def sampleOrder : List Instruction :=
  [⟨.numbered 8, [⟨.numbered 1, true, true⟩, ⟨.numbered 2, false, true⟩,
      ⟨.numbered 4, false, false⟩], []⟩,
    ⟨.numbered 9, [⟨.numbered 2, false, false⟩, ⟨.numbered 3, false, true⟩,
      ⟨.numbered 6, true, false⟩, ⟨.numbered 7, true, true⟩], [7]⟩]

/-- The same instructions the other way round, each with its accounts the other way round. -/
def sampleOtherOrder : List Instruction :=
  [⟨.numbered 9, [⟨.numbered 7, true, true⟩, ⟨.numbered 6, true, false⟩,
      ⟨.numbered 3, false, true⟩, ⟨.numbered 2, false, false⟩], [7]⟩,
    ⟨.numbered 8, [⟨.numbered 4, false, false⟩, ⟨.numbered 2, false, true⟩,
      ⟨.numbered 1, true, true⟩], []⟩]

/-- Both orders give the payer the first place and differ in the two last groups. -/
theorem Message.alike_of_rearranged_sample :
    Instruction.Rearranged sampleOrder sampleOtherOrder ∧
    (LegacyMessage.compile (some (.numbered 1)) sampleOrder Hash.zero).map
        LegacyMessage.accountKeys =
      .ok ([1, 7, 6, 2, 3, 8, 4, 9].map Address.numbered) ∧
    (LegacyMessage.compile (some (.numbered 1)) sampleOtherOrder Hash.zero).map
        LegacyMessage.accountKeys =
      .ok ([1, 7, 6, 3, 2, 9, 8, 4].map Address.numbered) ∧
    Outcome.Alike LegacyMessage.Reordered
      (LegacyMessage.compile (some (.numbered 1)) sampleOrder Hash.zero)
      (LegacyMessage.compile (some (.numbered 1)) sampleOtherOrder Hash.zero) ∧
    Outcome.Alike (fun message other : V0Message =>
        message.toLegacyMessage.Reordered other.toLegacyMessage ∧
          message.addressTableLookups = other.addressTableLookups)
      (V0Message.compile (some (.numbered 1)) sampleOrder [sampleTable] Hash.zero)
      (V0Message.compile (some (.numbered 1)) sampleOtherOrder [sampleTable] Hash.zero) := by
  have rearranged : Instruction.Rearranged sampleOrder sampleOtherOrder :=
    ⟨sampleOrder.reverse, (List.reverse_perm _).symm,
      .cons ⟨rfl, (List.reverse_perm _).symm, rfl⟩
        (.cons ⟨rfl, (List.reverse_perm _).symm, rfl⟩ .nil)⟩
  have alike := Message.alike_of_rearranged (some (.numbered 1)) sampleOrder sampleOtherOrder
    Hash.zero rearranged
  exact ⟨rearranged, by decide, by decide, alike.1, alike.2 [sampleTable]⟩

end Transact
