import Transact.Proofs.FormatComparison
import Transact.Proofs.Recognition

/-!
# Why compilation fails

Compilation refuses instructions at several stages: where there are none, while lookup tables are
walked, when the groups of keys are counted and when places are given out. Which keys are left to be
counted depends on what the walks took, and no walk sees a key that an earlier table held. All the
same each refusal has a reason that can be told from the instructions, the payer and the lookup
tables alone (`CompileError.Due`).

Each stage fails for one cause, under a condition of its own (`Outcome.FailsIff`). The conditions
are brought together stage by stage: the walks of all tables fail where some key on offer is far
(`KeyTable.failsIff_extractAll`), and what follows fails where keys are too many
(`KeyTable.Supplies.failsIff_arrange`), since what was taken and what is left are together the keys
that were mentioned. The main statement, `Message.faults_of_compile`, is that either format reports
a fault exactly when it is due, so that a key is never unknown.
-/

namespace Transact

open Outcome (FailsIff)

/-- The first place of a key in the first lookup table that holds it. -/
def LookupTable.firstPlace? (tables : List LookupTable) (key : Address) : Option Nat :=
  tables.findSome? fun table => table.addresses.idxOf? key

/-- The first table answers for what it holds, and the tables behind it for the rest. -/
theorem LookupTable.firstPlace?_cons (source : LookupTable) (others : List LookupTable)
    (key : Address) : firstPlace? (source :: others) key =
      (source.addresses.idxOf? key).or (firstPlace? others key) := by
  rw [firstPlace?, List.findSome?_cons]
  cases source.addresses.idxOf? key with
  | none => rfl
  | some place => rfl

namespace KeyTable

variable {table rest : KeyTable} {use : Address → KeyUse}

/-- A place is refused exactly when it does not fit in a byte. -/
theorem failsIff_indexByte (place : Nat) :
    FailsIff (indexByte place) .addressTableLookupIndexOverflow (255 < place) :=
  (FailsIff.of_require _ _).congr Nat.not_le

/-- A count is refused exactly when it does not fit in a byte. -/
theorem failsIff_countByte (count : Nat) :
    FailsIff (countByte count) .accountIndexOverflow (255 < count) :=
  (FailsIff.of_require _ _).congr Nat.not_le

/-- Some key on offer is far: its first place, in the first lookup table that holds it, does not fit
in a byte. -/
def OffersFar (table : KeyTable) (use : Address → KeyUse) (sources : List LookupTable) : Prop :=
  ∃ writes key place, table.Offers use writes key ∧
    LookupTable.firstPlace? sources key = some place ∧ 255 < place

/-- A drain fails exactly when a key on offer with the right permission is far. -/
theorem failsIff_drain (records : table.Records use) (addresses : List Address)
    {wanted : KeyUse → Bool} (writes : Bool)
    (wanted_iff : ∀ use, wanted use = true ↔ use.isLoadable = true ∧ use.isWritable = writes) :
    FailsIff (table.drain addresses wanted) .addressTableLookupIndexOverflow
      (∃ key place, table.Offers use writes key ∧ addresses.idxOf? key = some place ∧
        255 < place) := by
  have walk : FailsIff ((positions 0 (table.select wanted) addresses).mapM fun entry =>
      indexByte entry.1) .addressTableLookupIndexOverflow
      (∃ entry ∈ positions 0 (table.select wanted) addresses, 255 < entry.1) :=
    FailsIff.mapM fun entry _ => failsIff_indexByte entry.1
  apply walk.map.congr
  have noted := mem_positions_iff 0 addresses (records.nodup_select wanted)
  simp only [mem_select_iff_offers records wanted_iff] at noted
  constructor
  · rintro ⟨⟨place, key⟩, member, far⟩
    obtain ⟨offered, _, found⟩ := (noted place key).mp member
    exact ⟨key, place, offered, found, far⟩
  · rintro ⟨key, place, offered, found, far⟩
    exact ⟨(place, key), (noted place key).mpr ⟨offered, Nat.zero_le _, found⟩, far⟩

/-- Walking one lookup table fails exactly when it holds a far key on offer. What is drained first
does not change what is on offer to the second drain. -/
theorem failsIff_extract (records : table.Records use) (source : LookupTable) :
    FailsIff (table.extract source) .addressTableLookupIndexOverflow
      (∃ writes key place, table.Offers use writes key ∧
        source.addresses.idxOf? key = some place ∧ 255 < place) := by
  have second : ∀ drained,
      table.drain source.addresses (fun use => use.isLoadable && use.isWritable) = .ok drained →
      FailsIff (drained.2.2.drain source.addresses fun use => use.isLoadable && !use.isWritable)
        .addressTableLookupIndexOverflow
        (∃ key place, table.Offers use false key ∧ source.addresses.idxOf? key = some place ∧
          255 < place) := by
    rintro ⟨indexes, taken, middle⟩ drained
    have middleRecords := (records_of_drain records drained).1
    have middleOffers := (exact_of_drain records true (by simp) drained).2
    have stillOffered : middle.Offers use false = table.Offers use false := by
      funext key
      simp [middleOffers]
    rw [← stillOffered]
    exact failsIff_drain middleRecords source.addresses false (by simp)
  apply FailsIff.congr ((failsIff_drain records source.addresses true (by simp)).bind
    fun drained writableDrained => (second drained writableDrained).bind fun others _ => ?_)
  · rw [Bool.exists_bool, or_false, or_comm]
  · obtain ⟨readonlyIndexes, readonly, last⟩ := others
    dsimp only
    split
    · exact FailsIff.ok _
    · exact FailsIff.ok _

/-- Walking lookup tables one after the other fails exactly when some key on offer is far.

The induction is on the lookup tables. What the first leaves on offer is what it does not hold, and
of such a key the first place is told by the tables behind. -/
theorem failsIff_extractAll (records : table.Records use) (sources : List LookupTable) :
    FailsIff (table.extractAll sources) .addressTableLookupIndexOverflow
      (table.OffersFar use sources) := by
  induction sources generalizing table with
  | nil =>
    apply (FailsIff.ok _).congr
    simp [OffersFar, LookupTable.firstPlace?]
  | cons source others inductionHypothesis =>
    have continues : ∀ extracted, table.extract source = .ok extracted →
        FailsIff (extracted.2.extractAll others) .addressTableLookupIndexOverflow
          (∃ writes key place, (table.Offers use writes key ∧ key ∉ source.addresses) ∧
            LookupTable.firstPlace? others key = some place ∧ 255 < place) := by
      rintro ⟨selection, middle⟩ extracted
      have left := (exact_of_extract records extracted).2.2
      simp only [← left]
      exact inductionHypothesis (supplies_of_extract records extracted).1.records
    apply FailsIff.congr ((failsIff_extract records source).bind
      fun extracted first => (continues extracted first).map)
    simp only [OffersFar, LookupTable.firstPlace?_cons, Option.or_eq_some_iff, ← exists_or,
      List.idxOf?_eq_none_iff]
    refine exists_congr fun writes => exists_congr fun key => exists_congr fun place => ?_
    tauto

/-- Laying out a table fails exactly when there are too many signers or too many readonly keys that
do not sign. The readonly signers are no more than the signers. -/
theorem failsIff_layOut (table : KeyTable) :
    FailsIff table.layOut .accountIndexOverflow
      (255 < table.writableSigners.length + table.readonlySigners.length ∨
        255 < table.readonlyOthers.length) := by
  apply FailsIff.congr ((failsIff_countByte _).bind fun signers _ =>
    (failsIff_countByte _).bind fun readonlySigners _ => (failsIff_countByte _).map)
  omega

end KeyTable

/-- Giving out places fails exactly when there are more keys than a byte can tell apart, as long as
every mentioned key is one of them. -/
theorem AccountKeys.failsIff_compile {keys : AccountKeys} {instructions : List Instruction}
    (held : ∀ key ∈ Mentions.ofInstructions instructions, key ∈ keys.toList) :
    FailsIff (keys.compile instructions) .accountIndexOverflow (256 < keys.toList.length) := by
  by_cases crowded : 256 < keys.toList.length
  · rw [compile_of_crowded crowded]
    exact FailsIff.of_error crowded
  · obtain ⟨compiled, succeeded⟩ := exists_compile (Nat.le_of_not_lt crowded) held
    rw [succeeded]
    exact FailsIff.of_ok compiled crowded

namespace Mentions

variable {payer : Option Address} {instructions : List Instruction} {tables : List LookupTable}

/-- The mentioned keys that lookup tables supply: those that may be loaded and are held by some
table. -/
def supplied (payer : Option Address) (instructions : List Instruction)
    (tables : List LookupTable) : List Address :=
  (order payer instructions).filter fun key =>
    (!isSigner payer instructions key && !isProgram instructions key) &&
      tables.any fun table => table.addresses.contains key

/-- Some key that may be loaded has its place in the lookup tables beyond what a byte can hold: its
first place in the first table that holds it. -/
def HasFarKey (payer : Option Address) (instructions : List Instruction)
    (tables : List LookupTable) : Prop :=
  ∃ key place, IsLoadable payer instructions key ∧
    LookupTable.firstPlace? tables key = some place ∧ 255 < place

/-- The keys of a message are too many: all those mentioned are more than a byte can tell apart, or
those that sign, or those among the carried ones that neither sign nor are written, are more than a
byte can count. -/
def IsCrowded (payer : Option Address) (instructions : List Instruction)
    (tables : List LookupTable) : Prop :=
  256 < (order payer instructions).length ∨ 255 < (signers payer instructions).length ∨
    255 < (group payer instructions (supplied payer instructions tables) false false).length

/-- A key is supplied exactly when it may be loaded and some lookup table holds it. -/
theorem mem_supplied_iff {key : Address} :
    key ∈ supplied payer instructions tables ↔
      IsLoadable payer instructions key ∧
        (LookupTable.firstHolder? tables key).isSome = true := by
  rw [supplied, List.mem_filter, mem_order_iff, LookupTable.firstHolder?, List.findIdx?_isSome]
  simp only [IsLoadable, Bool.and_eq_true, Bool.not_eq_true', and_assoc]

/-- A group holds the mentioned keys with its permissions that are not loaded. -/
theorem mem_group_iff {loaded : List Address} {signs writes : Bool} {key : Address} :
    key ∈ group payer instructions loaded signs writes ↔
      IsMentioned payer instructions key ∧ key ∉ loaded ∧
        isSigner payer instructions key = signs ∧ isWritable payer instructions key = writes := by
  rw [group, List.mem_filter, mem_order_iff]
  simp

/-- Without lookup tables no key is far. -/
theorem not_hasFarKey_nil : ¬HasFarKey payer instructions [] := by
  rintro ⟨key, place, _, found, _⟩
  cases found

/-- Some collected key on offer is far exactly when some key that may be loaded is. -/
theorem offersFar_ofInstructions_iff :
    (KeyTable.ofInstructions payer instructions).OffersFar (use payer instructions) tables ↔
      HasFarKey payer instructions tables := by
  simp only [KeyTable.OffersFar, HasFarKey, offers_ofInstructions_iff]
  constructor
  · rintro ⟨_, key, place, ⟨loadable, _⟩, far⟩
    exact ⟨key, place, loadable, far⟩
  · rintro ⟨key, place, loadable, far⟩
    exact ⟨_, key, place, ⟨loadable, rfl⟩, far⟩

end Mentions

namespace KeyTable.Supplies

variable {payer : Option Address} {instructions : List Instruction} {tables : List LookupTable}
  {rest : KeyTable} {writable readonly : List Address}
  (supplies : (ofInstructions payer instructions).Supplies (Mentions.use payer instructions)
    writable readonly rest)

include supplies

/-- As many keys sign as are asked to, whatever was taken. -/
theorem length_signers :
    rest.writableSigners.length + rest.readonlySigners.length =
      (Mentions.signers payer instructions).length := by
  have records := records_ofInstructions payer instructions
  have unique : (Mentions.signers payer instructions).Nodup :=
    (Mentions.nodup_order payer instructions).filter _
  rw [(supplies.signers_eq records).1, (supplies.signers_eq records).2, ← List.length_append]
  apply List.Perm.length_eq
  apply (List.perm_ext_iff_of_nodup records.nodup_signers unique).mpr
  intro key
  rw [records.mem_signers_iff, mem_keys_ofInstructions, Mentions.signers, List.mem_filter,
    Mentions.mem_order_iff]
  rfl

/-- As many readonly keys that do not sign are left as are mentioned and not supplied. -/
theorem length_readonlyOthers
    (taken_iff : ∀ key, key ∈ writable ++ readonly ↔
      key ∈ Mentions.supplied payer instructions tables) :
    rest.readonlyOthers.length = (Mentions.group payer instructions
      (Mentions.supplied payer instructions tables) false false).length := by
  have leftUnique : rest.readonlyOthers.Nodup := supplies.records.nodup_select _
  have unique : (Mentions.group payer instructions
      (Mentions.supplied payer instructions tables) false false).Nodup :=
    (Mentions.nodup_order payer instructions).filter _
  apply List.Perm.length_eq
  apply (List.perm_ext_iff_of_nodup leftUnique unique).mpr
  intro key
  have left : key ∈ rest.keys ↔ Mentions.IsMentioned payer instructions key ∧
      key ∉ Mentions.supplied payer instructions tables := by
    rw [supplies.keys_eq, List.mem_filter, mem_keys_ofInstructions, ← taken_iff]
    simp
  rw [supplies.records.mem_readonlyOthers_iff, left, Mentions.mem_group_iff, and_assoc]
  rfl

/-- The keys that are laid out and those taken are as many as are mentioned. -/
theorem length_laidOut {header : MessageHeader} {keys : List Address}
    (laid : rest.LaidOut header keys) :
    (keys ++ writable ++ readonly).length = (Mentions.order payer instructions).length := by
  apply List.Perm.length_eq
  apply (List.perm_ext_iff_of_nodup (supplies.nodup_laidOut laid)
    (Mentions.nodup_order payer instructions)).mpr
  intro key
  rw [supplies.mem_laidOut_iff laid, mem_keys_ofInstructions, Mentions.mem_order_iff]

/-- What follows the lookup tables fails exactly when the keys are too many. No key of the
instructions is unknown, because those laid out and those taken are all that are mentioned. -/
theorem failsIff_arrange {α : Type}
    (taken_iff : ∀ key, key ∈ writable ++ readonly ↔
      key ∈ Mentions.supplied payer instructions tables)
    (keysOf : List Address → AccountKeys)
    (sequence : ∀ static, (keysOf static).toList = static ++ writable ++ readonly)
    (finish : MessageHeader × List Address → List CompiledInstruction → α) :
    FailsIff (do
        let laid ← rest.layOut
        let compiled ← (keysOf laid.2).compile instructions
        return finish laid compiled)
      .accountIndexOverflow (Mentions.IsCrowded payer instructions tables) := by
  have places : ∀ laid, rest.layOut = .ok laid →
      FailsIff ((keysOf laid.2).compile instructions) .accountIndexOverflow
        (256 < (Mentions.order payer instructions).length) := by
    rintro ⟨header, keys⟩ answered
    have laid := laidOut_of_layOut answered
    rw [← supplies.length_laidOut laid, ← sequence keys]
    apply AccountKeys.failsIff_compile
    intro key named
    rw [sequence, supplies.mem_laidOut_iff laid, mem_keys_ofInstructions, Mentions.isMentioned_iff]
    exact Or.inr named
  apply FailsIff.congr ((failsIff_layOut rest).bind fun laid answered =>
    (places laid answered).map)
  rw [supplies.length_signers, supplies.length_readonlyOthers taken_iff, Mentions.IsCrowded,
    or_comm]

end KeyTable.Supplies

/-- A fault of compilation is due, for a payer, instructions and lookup tables. Where there is
nothing to run, that is all that is reported. Else a key that is far in the lookup tables is
reported before keys that are too many. A key is never unknown. -/
def CompileError.Due (payer : Option Address) (instructions : List Instruction)
    (tables : List LookupTable) : CompileError → Prop
  | .noInstructions => instructions = []
  | .addressTableLookupIndexOverflow =>
    instructions ≠ [] ∧ Mentions.HasFarKey payer instructions tables
  | .accountIndexOverflow =>
    instructions ≠ [] ∧ ¬Mentions.HasFarKey payer instructions tables ∧
      Mentions.IsCrowded payer instructions tables
  | .unknownInstructionKey _ => False

/-- Compilation of a legacy message reports a fault exactly when it is due without lookup tables. -/
theorem LegacyMessage.compile_eq_error_iff (payer : Option Address)
    (instructions : List Instruction) (recentBlockhash : Hash) (fault : CompileError) :
    LegacyMessage.compile payer instructions recentBlockhash = .error fault ↔
      fault.Due payer instructions [] := by
  cases instructions with
  | nil =>
    change Except.error CompileError.noInstructions = .error fault ↔ _
    cases fault <;> simp [CompileError.Due]
  | cons first others =>
    have records := KeyTable.records_ofInstructions payer (first :: others)
    have nothing : ∀ key, key ∈ ([] ++ [] : List Address) ↔
        key ∈ Mentions.supplied payer (first :: others) [] := by
      intro key
      rw [Mentions.mem_supplied_iff]
      simp [LookupTable.firstHolder?]
    have arranges := (KeyTable.Supplies.refl records).failsIff_arrange nothing
      (fun static => ⟨static, none⟩) (by simp)
      fun laid compiled => (⟨laid.1, laid.2, recentBlockhash, compiled⟩ : LegacyMessage)
    have faults : LegacyMessage.compile payer (first :: others) recentBlockhash =
        .error fault ↔ _ := arranges fault
    rw [faults]
    cases fault <;> simp [CompileError.Due, Mentions.not_hasFarKey_nil]

/-- Compilation of a version 0 message reports a fault exactly when it is due with the lookup
tables. -/
theorem V0Message.compile_eq_error_iff (payer : Option Address) (instructions : List Instruction)
    (tables : List LookupTable) (recentBlockhash : Hash) (fault : CompileError) :
    V0Message.compile payer instructions tables recentBlockhash = .error fault ↔
      fault.Due payer instructions tables := by
  cases instructions with
  | nil =>
    change Except.error CompileError.noInstructions = .error fault ↔ _
    cases fault <;> simp [CompileError.Due]
  | cons first others =>
    have records := KeyTable.records_ofInstructions payer (first :: others)
    have walks := (KeyTable.failsIff_extractAll records tables).congr
      Mentions.offersFar_ofInstructions_iff
    have arranges : ∀ extracted,
        (KeyTable.ofInstructions payer (first :: others)).extractAll tables = .ok extracted →
        FailsIff (do
            let laid ← extracted.2.layOut
            let compiled ← AccountKeys.compile
              ⟨laid.2, some (LoadedAddresses.merge (extracted.1.map Prod.snd))⟩ (first :: others)
            return (⟨⟨laid.1, laid.2, recentBlockhash, compiled⟩, extracted.1.map Prod.fst⟩ :
              V0Message))
          .accountIndexOverflow (Mentions.IsCrowded payer (first :: others) tables) := by
      rintro ⟨selections, rest⟩ extracted
      have supplies := (KeyTable.supplies_of_extractAll records extracted).1
      obtain ⟨numbers, exactly⟩ := KeyTable.extracted_of_extractAll records extracted
      apply supplies.failsIff_arrange _ (fun static => ⟨static, some _⟩)
        (AccountKeys.toList_some · _)
      intro key
      rw [exactly.mem_taken_iff supplies, Mentions.offers_ofInstructions_iff,
        Mentions.mem_supplied_iff]
      simp only [Mentions.use, and_true]
    have faults : V0Message.compile payer (first :: others) tables recentBlockhash = .error fault ↔
        _ := walks.bind_eq_error_iff arranges fault
    rw [faults]
    cases fault <;> simp [CompileError.Due]

/-- No fault is due exactly when there is something to run, no key is far and the keys are not too
many. -/
theorem CompileError.forall_not_due_iff (payer : Option Address) (instructions : List Instruction)
    (tables : List LookupTable) :
    (∀ fault : CompileError, ¬fault.Due payer instructions tables) ↔
      instructions ≠ [] ∧ ¬Mentions.HasFarKey payer instructions tables ∧
        ¬Mentions.IsCrowded payer instructions tables := by
  constructor
  · intro spared
    have something : instructions ≠ [] := spared .noInstructions
    have near : ¬Mentions.HasFarKey payer instructions tables := fun far =>
      spared .addressTableLookupIndexOverflow ⟨something, far⟩
    exact ⟨something, near, fun crowded =>
      spared .accountIndexOverflow ⟨something, near, crowded⟩⟩
  · rintro ⟨something, near, roomy⟩ fault due
    cases fault with
    | noInstructions => exact something due
    | addressTableLookupIndexOverflow => exact near due.2
    | accountIndexOverflow => exact roomy due.2.2
    | unknownInstructionKey key => exact due

/-- Why compilation fails can be told beforehand. Either format reports a fault exactly when it is
due, the legacy one as if there were no lookup tables. It gives a message where there is something
to run, no key is far in the lookup tables, and the keys are not too many. -/
theorem Message.faults_of_compile (payer : Option Address) (instructions : List Instruction)
    (recentBlockhash : Hash) :
    ((∀ fault, LegacyMessage.compile payer instructions recentBlockhash = .error fault ↔
        fault.Due payer instructions []) ∧
      ((∃ message, LegacyMessage.compile payer instructions recentBlockhash = .ok message) ↔
        instructions ≠ [] ∧ ¬Mentions.IsCrowded payer instructions [])) ∧
    ∀ tables,
      (∀ fault, V0Message.compile payer instructions tables recentBlockhash = .error fault ↔
        fault.Due payer instructions tables) ∧
      ((∃ message, V0Message.compile payer instructions tables recentBlockhash = .ok message) ↔
        instructions ≠ [] ∧ ¬Mentions.HasFarKey payer instructions tables ∧
          ¬Mentions.IsCrowded payer instructions tables) := by
  have legacy := LegacyMessage.compile_eq_error_iff payer instructions recentBlockhash
  have v0 := fun tables => V0Message.compile_eq_error_iff payer instructions tables recentBlockhash
  refine ⟨⟨legacy, ?_⟩, fun tables => ⟨v0 tables, ?_⟩⟩
  · have spared := CompileError.forall_not_due_iff payer instructions []
    rw [and_iff_right Mentions.not_hasFarKey_nil] at spared
    rw [← spared, Outcome.exists_ok_iff]
    exact forall_congr' fun fault => not_congr (legacy fault)
  · rw [← CompileError.forall_not_due_iff, Outcome.exists_ok_iff]
    exact forall_congr' fun fault => not_congr (v0 tables fault)

/-- The second account stands behind 256 others in the first table that holds it, and nothing comes
of its earlier place in the table that follows. -/
example : V0Message.compile (some (.numbered 1)) sampleInstructions
    [⟨.numbered 5, List.replicate 256 (.numbered 7) ++ [.numbered 2]⟩, sampleTable] Hash.zero =
      .error .addressTableLookupIndexOverflow := by
  decide +kernel

end Transact
