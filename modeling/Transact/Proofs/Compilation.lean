import Transact.Compile.Message
import Transact.Proofs.Extraction
import Transact.Proofs.Places

/-!
# What compilation answers

A compiled message is arranged (`Arranged`): lookup tables supplied some of the collected keys, the
message carries the others in their groups, and its instructions refer to the carried and loaded
keys together. Both formats are arranged in this way, the legacy one with nothing loaded
(`LegacyMessage.arranged_of_compile`, `V0Message.arranged_of_compile`).

The main statements about an arranged message: its keys are those mentioned, each once
(`Arranged.nodup`, `Arranged.mem_iff`); a place permits what is asked of its key
(`Arranged.permissions`); and the carried keys stand group by group in the order of first mention
(`Arranged.accountKeys_eq`).
-/

namespace Transact

variable {payer : Option Address} {instructions : List Instruction} {recentBlockhash : Hash}

/-- A legacy message is compiled in three steps: there is something to run, the collected keys are
laid out, and places are given out. -/
theorem LegacyMessage.compile_eq_ok_iff (message : LegacyMessage) :
    LegacyMessage.compile payer instructions recentBlockhash = .ok message ↔
      instructions.isEmpty = false ∧
      (KeyTable.ofInstructions payer instructions).layOut =
        .ok (message.header, message.accountKeys) ∧
      AccountKeys.compile ⟨message.accountKeys, none⟩ instructions = .ok message.instructions ∧
      message.recentBlockhash = recentBlockhash := by
  unfold LegacyMessage.compile
  cases instructions.isEmpty with
  | true => simp [bind, Except.bind, throw, throwThe, MonadExceptOf.throw]
  | false =>
    simp only [Bool.false_eq_true, if_false, Outcome.bind_eq_ok_iff, true_and]
    constructor
    · rintro ⟨⟨header, accountKeys⟩, laidOut, places, placed, returned⟩
      cases returned
      exact ⟨laidOut, placed, rfl⟩
    · rintro ⟨laidOut, placed, rfl⟩
      exact ⟨_, laidOut, _, placed, rfl⟩

/-- A version 0 message is compiled in four steps: there is something to run, lookup tables supply
what they can, the keys that are left are laid out, and places are given out. -/
theorem V0Message.compile_eq_ok_iff (tables : List LookupTable) (message : V0Message) :
    V0Message.compile payer instructions tables recentBlockhash = .ok message ↔
      instructions.isEmpty = false ∧
      ∃ selections rest,
        (KeyTable.ofInstructions payer instructions).extractAll tables = .ok (selections, rest) ∧
        rest.layOut = .ok (message.header, message.accountKeys) ∧
        AccountKeys.compile
          ⟨message.accountKeys, some (LoadedAddresses.merge (selections.map Prod.snd))⟩
          instructions = .ok message.instructions ∧
        message.recentBlockhash = recentBlockhash ∧
        message.addressTableLookups = selections.map Prod.fst := by
  unfold V0Message.compile
  cases instructions.isEmpty with
  | true => simp [bind, Except.bind, throw, throwThe, MonadExceptOf.throw]
  | false =>
    simp only [Bool.false_eq_true, if_false, Outcome.bind_eq_ok_iff, true_and]
    constructor
    · rintro ⟨⟨selections, rest⟩, extracted, ⟨header, accountKeys⟩, laidOut, places, placed,
        returned⟩
      cases returned
      exact ⟨selections, rest, extracted, laidOut, placed, rfl, rfl⟩
    · rintro ⟨selections, rest, extracted, laidOut, placed, rfl, lookups⟩
      refine ⟨_, extracted, _, laidOut, _, placed, ?_⟩
      obtain ⟨common, addressTableLookups⟩ := message
      subst lookups
      rfl

/-- A message is arranged, with certain keys loaded, when those were supplied from the collected
keys, the rest of them is laid out in the message, and its instructions refer to the carried keys
followed by the loaded ones. -/
structure Arranged (payer : Option Address) (instructions : List Instruction) (rest : KeyTable)
    (message : LegacyMessage) (loaded : LoadedAddresses) : Prop where
  /-- The loaded keys were supplied by lookup tables. -/
  supplies : (KeyTable.ofInstructions payer instructions).Supplies
    (Mentions.use payer instructions) loaded.writable loaded.readonly rest
  /-- The message carries the keys that were left. -/
  laidOut : rest.LaidOut message.header message.accountKeys
  /-- A byte tells all keys apart. -/
  bounded : (message.accountKeys ++ loaded.writable ++ loaded.readonly).length ≤ 256
  /-- The instructions refer to the carried and loaded keys. -/
  refers : List.Forall₂
    (AccountKeys.Refers (message.accountKeys ++ loaded.writable ++ loaded.readonly))
    instructions message.instructions

/-- A compiled legacy message is arranged with nothing loaded. -/
theorem LegacyMessage.arranged_of_compile {message : LegacyMessage}
    (compiled : LegacyMessage.compile payer instructions recentBlockhash = .ok message) :
    Arranged payer instructions (KeyTable.ofInstructions payer instructions) message ⟨[], []⟩ := by
  obtain ⟨_, laidOut, placed, _⟩ := (LegacyMessage.compile_eq_ok_iff message).mp compiled
  obtain ⟨bounded, refers⟩ := AccountKeys.refers_of_compile placed
  exact ⟨KeyTable.Supplies.refl (KeyTable.records_ofInstructions payer instructions),
    KeyTable.laidOut_of_layOut laidOut, by simpa using bounded, by simpa using refers⟩

/-- A compiled version 0 message has the lookups that the lookup tables supplied, and is arranged
with what they supplied. -/
theorem V0Message.extracted_of_compile {tables : List LookupTable} {message : V0Message}
    (compiled : V0Message.compile payer instructions tables recentBlockhash = .ok message) :
    ∃ (selections : List (TableLookup × LoadedAddresses)) (rest : KeyTable),
      (KeyTable.ofInstructions payer instructions).extractAll tables = .ok (selections, rest) ∧
      message.addressTableLookups = selections.map Prod.fst ∧
      Arranged payer instructions rest message.toLegacyMessage
        (LoadedAddresses.merge (selections.map Prod.snd)) := by
  obtain ⟨_, selections, rest, extracted, laidOut, placed, _, lookups⟩ :=
    (V0Message.compile_eq_ok_iff tables message).mp compiled
  obtain ⟨supplies, _⟩ :=
    KeyTable.supplies_of_extractAll (KeyTable.records_ofInstructions payer instructions) extracted
  obtain ⟨bounded, refers⟩ := AccountKeys.refers_of_compile placed
  exact ⟨selections, rest, extracted, lookups, supplies, KeyTable.laidOut_of_layOut laidOut,
    by simpa using bounded, by simpa using refers⟩

/-- A compiled version 0 message is arranged with what its selections stand for, and each of those
resolves in one of the lookup tables. -/
theorem V0Message.arranged_of_compile {tables : List LookupTable} {message : V0Message}
    (compiled : V0Message.compile payer instructions tables recentBlockhash = .ok message) :
    ∃ (selections : List (TableLookup × LoadedAddresses)) (rest : KeyTable),
      message.addressTableLookups = selections.map Prod.fst ∧
      (∀ made ∈ selections, ∃ source ∈ tables, KeyTable.ResolvesIn source made) ∧
      Arranged payer instructions rest message.toLegacyMessage
        (LoadedAddresses.merge (selections.map Prod.snd)) := by
  obtain ⟨selections, rest, extracted, lookups, arranged⟩ := V0Message.extracted_of_compile compiled
  exact ⟨selections, rest, lookups, (KeyTable.supplies_of_extractAll
    (KeyTable.records_ofInstructions payer instructions) extracted).2, arranged⟩

/-- The lookups of a compiled message resolve against the lookup tables it was compiled with, as
long as no two of those share a key, to the keys it is arranged with. -/
theorem V0Message.loadAddresses_of_compile {tables : List LookupTable} {message : V0Message}
    (distinct : (tables.map LookupTable.key).Nodup)
    (compiled : V0Message.compile payer instructions tables recentBlockhash = .ok message) :
    ∃ rest loaded, message.loadAddresses tables = .ok loaded ∧
      Arranged payer instructions rest message.toLegacyMessage loaded := by
  obtain ⟨selections, rest, lookups, resolved, arranged⟩ := V0Message.arranged_of_compile compiled
  refine ⟨rest, _, ?_, arranged⟩
  rw [V0Message.loadAddresses, lookups]
  exact loadAll_of_extractAll distinct resolved

namespace Arranged

variable {rest : KeyTable} {message : LegacyMessage} {loaded : LoadedAddresses}

/-- Loaded keys neither sign nor are run. -/
theorem not_asked_of_loaded (arranged : Arranged payer instructions rest message loaded)
    {key : Address} (taken : key ∈ loaded.writable ++ loaded.readonly) :
    Mentions.isSigner payer instructions key = false ∧
      Mentions.isProgram instructions key = false := by
  have loadable := arranged.supplies.isLoadable taken
  simpa only [KeyUse.isLoadable, Mentions.use, Bool.and_eq_true, Bool.not_eq_true'] using loadable

/-- The carried keys are those mentioned and not loaded. -/
theorem mem_accountKeys_iff (arranged : Arranged payer instructions rest message loaded)
    (key : Address) :
    key ∈ message.accountKeys ↔ Mentions.IsMentioned payer instructions key ∧
      key ∉ loaded.writable ++ loaded.readonly := by
  rw [arranged.laidOut.mem_iff arranged.supplies.records, arranged.supplies.keys_eq,
    List.mem_filter, KeyTable.mem_keys_ofInstructions]
  simp

/-- The carried and loaded keys are exactly those mentioned. -/
theorem mem_iff (arranged : Arranged payer instructions rest message loaded) (key : Address) :
    key ∈ message.accountKeys ++ loaded.writable ++ loaded.readonly ↔
      Mentions.IsMentioned payer instructions key :=
  (arranged.supplies.mem_laidOut_iff arranged.laidOut key).trans KeyTable.mem_keys_ofInstructions

/-- No key is carried or loaded twice, or both carried and loaded. -/
theorem nodup (arranged : Arranged payer instructions rest message loaded) :
    (message.accountKeys ++ loaded.writable ++ loaded.readonly).Nodup :=
  arranged.supplies.nodup_laidOut arranged.laidOut

/-- A place permits what is asked of its key.

A carried key has the permissions of its group. A loaded key never signs, since only keys that do
not sign are loaded, and it is writable exactly where it was taken as writable. -/
theorem permissions (arranged : Arranged payer instructions rest message loaded) {index : Nat}
    {key : Address}
    (found : (message.accountKeys ++ loaded.writable ++ loaded.readonly)[index]? = some key) :
    message.header.isSigner index = Mentions.isSigner payer instructions key ∧
      V0Message.isWritablePlace message.header message.accountKeys.length loaded.writable.length
        index = Mentions.isWritable payer instructions key := by
  have described : message.header.signers ≤ message.accountKeys.length := by
    rw [arranged.laidOut.signers, arranged.laidOut.keys_eq]
    simp only [List.length_append]
    omega
  -- The place falls among the carried keys, the loaded writable ones or the loaded readonly ones.
  rcases getElem?_append_cases found with ⟨below, found⟩ | ⟨above, found⟩
  · rcases getElem?_append_cases found with ⟨below, found⟩ | ⟨above, found⟩
    · rw [V0Message.isWritablePlace_eq _ _ _ _ below]
      exact arranged.laidOut.permissions arranged.supplies.records found
    · have member := List.mem_of_getElem? found
      have written : Mentions.isWritable payer instructions key = true :=
        (arranged.supplies.writable_mem key member).2.2
      have silent := (arranged.not_asked_of_loaded (List.mem_append_left _ member)).1
      have inside := (List.getElem?_eq_some_iff.mp found).1
      rw [silent, written, MessageHeader.isSigner, V0Message.isWritablePlace, if_pos above]
      exact ⟨decide_eq_false (by omega), decide_eq_true (by omega)⟩
  · have member := List.mem_of_getElem? found
    have unwritten : Mentions.isWritable payer instructions key = false :=
      (arranged.supplies.readonly_mem key member).2.2
    rw [List.length_append] at above
    have silent := (arranged.not_asked_of_loaded (List.mem_append_right _ member)).1
    rw [silent, unwritten, MessageHeader.isSigner, V0Message.isWritablePlace, if_pos (by omega)]
    exact ⟨decide_eq_false (by omega), decide_eq_false (by omega)⟩

/-- A place is a program's exactly when its key is run. -/
theorem isKeyCalledAsProgram_eq (arranged : Arranged payer instructions rest message loaded)
    {index : Nat} {key : Address}
    (found : (message.accountKeys ++ loaded.writable ++ loaded.readonly)[index]? = some key) :
    message.isKeyCalledAsProgram index = Mentions.isProgram instructions key :=
  AccountKeys.any_programIdIndex_eq arranged.nodup arranged.refers found

end Arranged

namespace Mentions

/-- The mentioned keys of one group that are not loaded, in the order of first mention. -/
def group (payer : Option Address) (instructions : List Instruction) (loaded : List Address)
    (signs writes : Bool) : List Address :=
  (order payer instructions).filter fun key => !loaded.contains key &&
    (isSigner payer instructions key == signs && isWritable payer instructions key == writes)

end Mentions

namespace Arranged

variable {rest : KeyTable} {message : LegacyMessage} {loaded : LoadedAddresses}

/-- The keys that are left, without the payer, are those mentioned by instructions and not loaded,
in the order of first mention. The payer, who is collected last, is the only key whose place in
the collected keys differs from this order. -/
theorem select_eq (arranged : Arranged payer instructions rest message loaded)
    (wanted : KeyUse → Bool) :
    rest.select wanted =
      ((Mentions.ofInstructions instructions).eraseDups.filter
        fun key => !decide (Mentions.Pays payer key)).filter
        fun key => !(loaded.writable ++ loaded.readonly).contains key &&
          wanted (Mentions.use payer instructions key) := by
  have payer_eq : rest.payer = KeyTable.effectivePayer payer := arranged.supplies.payer_eq
  have pays : ∀ key, decide (Mentions.Pays payer key) =
      (KeyTable.effectivePayer payer == some key) := by
    intro key
    rw [Bool.eq_iff_iff, decide_eq_true_iff, beq_iff_eq, Mentions.effectivePayer_eq_some_iff]
  rw [arranged.supplies.records.select_eq, arranged.supplies.keys_eq, payer_eq,
    KeyTable.keys_ofInstructions]
  simp only [pays, List.filter_filter]
  cases KeyTable.effectivePayer payer with
  | none =>
    rw [Option.toList_none, List.append_nil]
    apply List.filter_congr
    intro key _
    simp [bne, Bool.and_comm]
  | some paying =>
    rw [Option.toList_some, eraseDups_concat]
    -- The payer is collected last, if no instruction mentions it, and is never selected.
    have dropped : ∀ keys : List Address, (keys ++ [paying]).filter (fun key =>
          (some paying != some key && wanted (Mentions.use payer instructions key)) &&
            !(loaded.writable ++ loaded.readonly).contains key) =
        keys.filter (fun key =>
          (some paying != some key && wanted (Mentions.use payer instructions key)) &&
            !(loaded.writable ++ loaded.readonly).contains key) := by
      intro keys
      rw [List.filter_append]
      simp
    split
    · apply List.filter_congr
      intro key _
      simp [bne, Bool.and_comm, Bool.and_left_comm]
    · rw [dropped]
      apply List.filter_congr
      intro key _
      simp [bne, Bool.and_comm, Bool.and_left_comm]

/-- A group of keys of which the payer is none is what the table selects for it. -/
theorem group_eq (arranged : Arranged payer instructions rest message loaded)
    (signs writes : Bool) (spared : (signs && writes) = false) :
    Mentions.group payer instructions (loaded.writable ++ loaded.readonly) signs writes =
      rest.select fun use => use.isSigner == signs && use.isWritable == writes := by
  rw [arranged.select_eq, Mentions.group, Mentions.order, List.filter_append]
  have none_paying : (KeyTable.effectivePayer payer).toList.filter (fun key =>
      !(loaded.writable ++ loaded.readonly).contains key &&
        (Mentions.isSigner payer instructions key == signs &&
          Mentions.isWritable payer instructions key == writes)) = [] := by
    rw [List.filter_eq_nil_iff]
    intro key member
    have pays := (Mentions.effectivePayer_eq_some_iff payer key).mp (Option.mem_toList.mp member)
    cases signs <;> cases writes <;> simp_all [Mentions.isSigner, Mentions.isWritable]
  rw [none_paying]
  rfl

/-- The group of writable signers is the payer and what the table selects for it. -/
theorem group_writableSigners (arranged : Arranged payer instructions rest message loaded) :
    Mentions.group payer instructions (loaded.writable ++ loaded.readonly) true true =
      rest.writableSigners := by
  have payer_eq : rest.payer = KeyTable.effectivePayer payer := arranged.supplies.payer_eq
  rw [KeyTable.writableSigners, arranged.select_eq, Mentions.group, Mentions.order,
    List.filter_append, payer_eq]
  have all_paying : (KeyTable.effectivePayer payer).toList.filter (fun key =>
      !(loaded.writable ++ loaded.readonly).contains key &&
        (Mentions.isSigner payer instructions key == true &&
          Mentions.isWritable payer instructions key == true)) =
      (KeyTable.effectivePayer payer).toList := by
    rw [List.filter_eq_self]
    intro key member
    have pays := (Mentions.effectivePayer_eq_some_iff payer key).mp (Option.mem_toList.mp member)
    -- The payer signs, and no key that signs is loaded.
    have carried : key ∉ loaded.writable ++ loaded.readonly := by
      intro taken
      have silent := (arranged.not_asked_of_loaded taken).1
      simp [Mentions.isSigner, pays] at silent
    simpa [Mentions.isSigner, Mentions.isWritable, pays] using carried
  rw [all_paying]
  simp only [Mentions.use, beq_true]

/-- Each of the three other groups is what the table selects for it. -/
theorem group_others (arranged : Arranged payer instructions rest message loaded) :
    Mentions.group payer instructions (loaded.writable ++ loaded.readonly) true false =
      rest.readonlySigners ∧
    Mentions.group payer instructions (loaded.writable ++ loaded.readonly) false true =
      rest.writableOthers ∧
    Mentions.group payer instructions (loaded.writable ++ loaded.readonly) false false =
      rest.readonlyOthers := by
  rw [arranged.group_eq true false rfl, arranged.group_eq false true rfl,
    arranged.group_eq false false rfl]
  simp only [KeyTable.readonlySigners, KeyTable.writableOthers, KeyTable.readonlyOthers, beq_true,
    beq_false, and_self]

/-- The carried keys stand group by group, within each group in the order of first mention and the
payer first. -/
theorem accountKeys_eq (arranged : Arranged payer instructions rest message loaded) :
    message.accountKeys =
      Mentions.group payer instructions (loaded.writable ++ loaded.readonly) true true ++
      Mentions.group payer instructions (loaded.writable ++ loaded.readonly) true false ++
      Mentions.group payer instructions (loaded.writable ++ loaded.readonly) false true ++
      Mentions.group payer instructions (loaded.writable ++ loaded.readonly) false false := by
  obtain ⟨readonlySigners, writableOthers, readonlyOthers⟩ := arranged.group_others
  rw [arranged.laidOut.keys_eq, arranged.group_writableSigners, readonlySigners, writableOthers,
    readonlyOthers]

/-- The header counts both groups of signers, the readonly signers, and the last group. -/
theorem header_eq (arranged : Arranged payer instructions rest message loaded) :
    message.header.signers =
      (Mentions.group payer instructions (loaded.writable ++ loaded.readonly) true true ++
        Mentions.group payer instructions (loaded.writable ++ loaded.readonly) true false).length ∧
    message.header.readonlySigners =
      (Mentions.group payer instructions (loaded.writable ++ loaded.readonly) true false).length ∧
    message.header.readonlyOthers =
      (Mentions.group payer instructions (loaded.writable ++ loaded.readonly) false false).length
    := by
  obtain ⟨readonlySigners, _, readonlyOthers⟩ := arranged.group_others
  rw [arranged.group_writableSigners, readonlySigners, readonlyOthers, List.length_append]
  exact ⟨arranged.laidOut.signers, arranged.laidOut.readonlySigners,
    arranged.laidOut.readonlyOthers⟩

end Arranged

/-- Two instructions of one program. The second account is written by the first instruction only and
the fourth account is never written. -/
def sampleInstructions : List Instruction :=
  [⟨.numbered 9, [⟨.numbered 1, true, true⟩, ⟨.numbered 2, false, true⟩,
      ⟨.numbered 3, true, false⟩], []⟩,
    ⟨.numbered 9, [⟨.numbered 2, false, false⟩, ⟨.numbered 4, false, false⟩], [7]⟩]

/-- A table that can supply the second and the fourth account. -/
def sampleTable : LookupTable := ⟨.numbered 5, [.numbered 4, .numbered 9, .numbered 2]⟩

/-- The legacy message of the sample carries all five keys. -/
def sampleLegacy : LegacyMessage :=
  ⟨⟨2, 1, 2⟩, [.numbered 1, .numbered 3, .numbered 2, .numbered 9, .numbered 4], Hash.zero,
    [⟨3, [0, 2, 1], []⟩, ⟨3, [2, 4], [7]⟩]⟩

/-- The version 0 message of the sample loads two of them. -/
def sampleV0 : V0Message :=
  { header := ⟨2, 1, 1⟩, accountKeys := [.numbered 1, .numbered 3, .numbered 9],
    recentBlockhash := Hash.zero, instructions := [⟨2, [0, 3, 1], []⟩, ⟨2, [3, 4], [7]⟩],
    addressTableLookups := [⟨.numbered 5, [2], [0]⟩] }

theorem compile_sampleLegacy :
    LegacyMessage.compile (some (.numbered 1)) sampleInstructions Hash.zero = .ok sampleLegacy := by
  decide

theorem compile_sampleV0 :
    V0Message.compile (some (.numbered 1)) sampleInstructions [sampleTable] Hash.zero =
      .ok sampleV0 := by
  decide

end Transact
