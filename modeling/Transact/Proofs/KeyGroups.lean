import Transact.Message.V0
import Transact.Proofs.Mentions
import Transact.Proofs.Outcomes

/-!
# The groups of a table's keys

A table of keys holds each key once with what is asked of it, and its payer is one of its writable
signers (`KeyTable.Records`). Compilation divides such a table into four groups and notes their
sizes in a header (`KeyTable.LaidOut`).

The main statements: the groups hold the keys of the table, each once (`LaidOut.nodup`,
`LaidOut.mem_iff`), and the permissions that header and place give a key are those that are asked
of it (`LaidOut.permissions`).
-/

namespace Transact

/-- An item of two joined lists stands in one of them, at the place that is left of its own. -/
theorem getElem?_append_cases {α : Type} {first second : List α} {index : Nat} {item : α}
    (found : (first ++ second)[index]? = some item) :
    (index < first.length ∧ first[index]? = some item) ∨
      (first.length ≤ index ∧ second[index - first.length]? = some item) := by
  rw [List.getElem?_append] at found
  split at found
  · exact Or.inl ⟨‹_›, found⟩
  · exact Or.inr ⟨Nat.le_of_not_lt ‹_›, found⟩

/-- A version 0 message judges a key that it carries as a legacy message with the same header and
as many keys does. -/
theorem V0Message.isWritablePlace_eq (header : MessageHeader) (keys loadedWritable index : Nat)
    (carried : index < keys) :
    V0Message.isWritablePlace header keys loadedWritable index =
      LegacyMessage.isWritablePlace header keys index := by
  unfold V0Message.isWritablePlace LegacyMessage.isWritablePlace
  rw [if_neg (by omega)]
  split
  · exact decide_eq_decide.mpr (by omega)
  · exact decide_eq_decide.mpr (by omega)

namespace KeyTable

variable {table : KeyTable} {use : Address → KeyUse}

/-- The table holds each of its keys once, with what a function says is asked of it, and its payer
is among them and is asked to sign and to be writable. -/
structure Records (table : KeyTable) (use : Address → KeyUse) : Prop where
  /-- No key stands in the table twice. -/
  nodup : table.keys.Nodup
  /-- Each key stands beside what is asked of it. -/
  entries_eq : table.entries = table.keys.map fun key => (key, use key)
  /-- The payer stands in the table. -/
  payer_mem : ∀ key, table.payer = some key → key ∈ table.keys
  /-- The payer is a writable signer. -/
  payer_use : ∀ key, table.payer = some key →
    (use key).isSigner = true ∧ (use key).isWritable = true

/-- The keys that compilation collects: those mentioned, without repeats. -/
theorem keys_ofInstructions (payer : Option Address) (instructions : List Instruction) :
    (ofInstructions payer instructions).keys =
      (Mentions.ofInstructions instructions ++ (effectivePayer payer).toList).eraseDups := by
  rw [keys, entries_ofInstructions, List.map_map]
  exact List.map_id' _

/-- The collected keys are exactly those mentioned. -/
theorem mem_keys_ofInstructions {payer : Option Address} {instructions : List Instruction}
    {key : Address} :
    key ∈ (ofInstructions payer instructions).keys ↔
      Mentions.IsMentioned payer instructions key := by
  rw [keys_ofInstructions, List.mem_eraseDups, Mentions.isMentioned_iff, List.mem_append,
    Option.mem_toList, Mentions.effectivePayer_eq_some_iff, or_comm]

/-- Collecting the keys of instructions establishes the invariant. -/
theorem records_ofInstructions (payer : Option Address) (instructions : List Instruction) :
    (ofInstructions payer instructions).Records (Mentions.use payer instructions) where
  nodup := by
    rw [keys_ofInstructions]
    exact nodup_eraseDups _
  entries_eq := by rw [keys_ofInstructions, entries_ofInstructions]
  payer_mem := by
    intro key paying
    have effective : effectivePayer payer = some key := paying
    simp [keys_ofInstructions, effective]
  payer_use := by
    intro key paying
    have pays : Mentions.Pays payer key := (Mentions.effectivePayer_eq_some_iff payer key).mp paying
    simp [Mentions.use, Mentions.isSigner, Mentions.isWritable, pays]

/-- The keys that are left are those that were not taken out, in their order. -/
theorem keys_without (table : KeyTable) (taken : List Address) :
    (table.without taken).keys = table.keys.filter fun key => !taken.contains key := by
  simp only [keys, KeyTable.without, List.filter_map, Function.comp_def]

namespace Records

/-- Selecting from the table is selecting from its keys by what is asked of them. -/
theorem select_eq (records : table.Records use) (wanted : KeyUse → Bool) :
    table.select wanted =
      table.keys.filter fun key => table.payer != some key && wanted (use key) := by
  rw [select, records.entries_eq, List.filter_map, List.map_map]
  exact List.map_id' _

theorem mem_select_iff (records : table.Records use) (wanted : KeyUse → Bool) (key : Address) :
    key ∈ table.select wanted ↔
      key ∈ table.keys ∧ table.payer ≠ some key ∧ wanted (use key) = true := by
  rw [records.select_eq, List.mem_filter, Bool.and_eq_true, bne_iff_ne]

theorem nodup_select (records : table.Records use) (wanted : KeyUse → Bool) :
    (table.select wanted).Nodup := by
  rw [records.select_eq]
  exact records.nodup.filter _

/-- A use that is never made of the payer selects all keys of which it is made. -/
theorem mem_select_iff_of_payer (records : table.Records use) (wanted : KeyUse → Bool)
    (spared : ∀ key, (use key).isSigner = true → (use key).isWritable = true →
      wanted (use key) = false) (key : Address) :
    key ∈ table.select wanted ↔ key ∈ table.keys ∧ wanted (use key) = true := by
  rw [records.mem_select_iff]
  constructor
  · rintro ⟨member, _, wantedKey⟩
    exact ⟨member, wantedKey⟩
  · rintro ⟨member, wantedKey⟩
    refine ⟨member, ?_, wantedKey⟩
    intro paying
    obtain ⟨signs, written⟩ := records.payer_use key paying
    simp [spared key signs written] at wantedKey

/-- Taking out keys other than the payer keeps the invariant. -/
theorem without (records : table.Records use) (taken : List Address)
    (spared : ∀ key, table.payer = some key → key ∉ taken) :
    (table.without taken).Records use where
  nodup := by
    rw [keys_without]
    exact records.nodup.filter _
  entries_eq := by
    rw [keys_without, KeyTable.without]
    simp only [records.entries_eq, List.filter_map, Function.comp_def]
  payer_mem := by
    intro key paying
    rw [keys_without, List.mem_filter]
    exact ⟨records.payer_mem key paying, by simpa using spared key paying⟩
  payer_use := records.payer_use

end Records

/-- A header and a list of keys lay out a table when the list is its four groups in order and the
header's counts are their sizes. -/
structure LaidOut (table : KeyTable) (header : MessageHeader) (keys : List Address) : Prop where
  /-- The groups stand in order. -/
  keys_eq : keys = table.writableSigners ++ table.readonlySigners ++ table.writableOthers ++
    table.readonlyOthers
  /-- The first two groups sign. -/
  signers : header.signers = table.writableSigners.length + table.readonlySigners.length
  /-- The second group is readonly. -/
  readonlySigners : header.readonlySigners = table.readonlySigners.length
  /-- The last group is readonly. -/
  readonlyOthers : header.readonlyOthers = table.readonlyOthers.length

/-- A count that is written as a byte can be read back from it. -/
theorem toNat_countByte {count : Nat} {byte : UInt8} (written : countByte count = .ok byte) :
    byte.toNat = count := by
  unfold countByte at written
  split at written
  · cases written
    simp only [UInt8.toNat_ofNat']
    omega
  · cases written

/-- What laying out answers is a layout of the table. -/
theorem laidOut_of_layOut {header : MessageHeader} {keys : List Address}
    (answered : table.layOut = .ok (header, keys)) : table.LaidOut header keys := by
  simp only [layOut, Outcome.bind_eq_ok_iff] at answered
  obtain ⟨signers, signersWritten, readonlySigners, readonlySignersWritten, readonlyOthers,
    readonlyOthersWritten, returned⟩ := answered
  cases returned
  exact ⟨rfl, toNat_countByte signersWritten, toNat_countByte readonlySignersWritten,
    toNat_countByte readonlyOthersWritten⟩

namespace Records

/-- The writable signers are the payer and the other keys that are asked to be both. -/
theorem mem_writableSigners_iff (records : table.Records use) (key : Address) :
    key ∈ table.writableSigners ↔
      key ∈ table.keys ∧ (use key).isSigner = true ∧ (use key).isWritable = true := by
  simp only [writableSigners, List.mem_append, Option.mem_toList,
    records.mem_select_iff, Bool.and_eq_true]
  constructor
  · rintro (paying | ⟨member, _, asked⟩)
    · exact ⟨records.payer_mem key paying, records.payer_use key paying⟩
    · exact ⟨member, asked⟩
  · rintro ⟨member, asked⟩
    by_cases paying : table.payer = some key
    · exact Or.inl paying
    · exact Or.inr ⟨member, paying, asked⟩

theorem mem_readonlySigners_iff (records : table.Records use) (key : Address) :
    key ∈ table.readonlySigners ↔
      key ∈ table.keys ∧ (use key).isSigner = true ∧ (use key).isWritable = false := by
  rw [KeyTable.readonlySigners, records.mem_select_iff_of_payer _ (by simp +contextual)]
  simp

theorem mem_writableOthers_iff (records : table.Records use) (key : Address) :
    key ∈ table.writableOthers ↔
      key ∈ table.keys ∧ (use key).isSigner = false ∧ (use key).isWritable = true := by
  rw [KeyTable.writableOthers, records.mem_select_iff_of_payer _ (by simp +contextual)]
  simp

theorem mem_readonlyOthers_iff (records : table.Records use) (key : Address) :
    key ∈ table.readonlyOthers ↔
      key ∈ table.keys ∧ (use key).isSigner = false ∧ (use key).isWritable = false := by
  rw [KeyTable.readonlyOthers, records.mem_select_iff_of_payer _ (by simp +contextual)]
  simp

theorem nodup_writableSigners (records : table.Records use) : table.writableSigners.Nodup := by
  apply List.Nodup.append
  · cases table.payer <;> simp
  · exact records.nodup_select _
  · intro key paying selected
    rw [Option.mem_toList] at paying
    exact ((records.mem_select_iff _ key).mp selected).2.1 paying

/-- The two groups of signers together are the keys that are asked to sign. -/
theorem mem_signers_iff (records : table.Records use) (key : Address) :
    key ∈ table.writableSigners ++ table.readonlySigners ↔
      key ∈ table.keys ∧ (use key).isSigner = true := by
  rw [List.mem_append, records.mem_writableSigners_iff, records.mem_readonlySigners_iff]
  cases (use key).isWritable <;> simp

/-- No key signs twice: the two groups of signers differ in what is asked of their keys. -/
theorem nodup_signers (records : table.Records use) :
    (table.writableSigners ++ table.readonlySigners).Nodup := by
  apply records.nodup_writableSigners.append (records.nodup_select _)
  intro key first second
  have written := ((records.mem_writableSigners_iff key).mp first).2.2
  have unwritten := ((records.mem_readonlySigners_iff key).mp second).2.2
  simp [written] at unwritten

end Records

namespace LaidOut

variable {header : MessageHeader} {keys : List Address}

/-- The laid out keys are the table's. -/
theorem mem_iff (laid : table.LaidOut header keys) (records : table.Records use)
    (key : Address) : key ∈ keys ↔ key ∈ table.keys := by
  simp only [laid.keys_eq, List.mem_append, records.mem_writableSigners_iff,
    records.mem_readonlySigners_iff, records.mem_writableOthers_iff,
    records.mem_readonlyOthers_iff]
  cases (use key).isSigner <;> cases (use key).isWritable <;> simp

/-- No key is laid out twice: within a group because the table holds it once, across groups because
what is asked of it differs. -/
theorem nodup (laid : table.LaidOut header keys) (records : table.Records use) : keys.Nodup := by
  rw [laid.keys_eq]
  refine (records.nodup_signers.append (records.nodup_select _) ?_).append
    (records.nodup_select _) ?_
  · intro key first second
    have silent := ((records.mem_writableOthers_iff key).mp second).2.1
    rcases List.mem_append.mp first with member | member
    · simp [((records.mem_writableSigners_iff key).mp member).2.1] at silent
    · simp [((records.mem_readonlySigners_iff key).mp member).2.1] at silent
  · intro key first second
    obtain ⟨_, silent, unwritten⟩ := (records.mem_readonlyOthers_iff key).mp second
    rcases List.mem_append.mp first with earlier | member
    · rcases List.mem_append.mp earlier with member | member
      · simp [((records.mem_writableSigners_iff key).mp member).2.1] at silent
      · simp [((records.mem_readonlySigners_iff key).mp member).2.1] at silent
    · simp [((records.mem_writableOthers_iff key).mp member).2.2] at unwritten

/-- The first keys of a layout are the signers. -/
theorem take_signers (laid : table.LaidOut header keys) :
    keys.take header.signers = table.writableSigners ++ table.readonlySigners := by
  rw [laid.keys_eq, laid.signers, ← List.length_append, List.append_assoc _ table.writableOthers,
    List.take_left]

/-- Behind the signers stand the other keys. -/
theorem drop_signers (laid : table.LaidOut header keys) :
    keys.drop header.signers = table.writableOthers ++ table.readonlyOthers := by
  rw [laid.keys_eq, laid.signers, ← List.length_append, List.append_assoc _ table.writableOthers,
    List.drop_left]

/-- The permissions of a place are those asked of the key that stands there.

The place falls into one of the four groups. Membership in the group says what is asked of the
key; the group's bounds, which the header repeats, say what the place permits. -/
theorem permissions (laid : table.LaidOut header keys) (records : table.Records use)
    {index : Nat} {key : Address} (found : keys[index]? = some key) :
    header.isSigner index = (use key).isSigner ∧
      LegacyMessage.isWritablePlace header keys.length index = (use key).isWritable := by
  have length : keys.length = table.writableSigners.length + table.readonlySigners.length +
      table.writableOthers.length + table.readonlyOthers.length := by
    simp only [laid.keys_eq, List.length_append]
  simp only [MessageHeader.isSigner, LegacyMessage.isWritablePlace, laid.signers,
    laid.readonlySigners, laid.readonlyOthers, length]
  rw [laid.keys_eq] at found
  rcases getElem?_append_cases found with ⟨below, found⟩ | ⟨above, found⟩
  · rcases getElem?_append_cases found with ⟨below, found⟩ | ⟨above, found⟩
    · rcases getElem?_append_cases found with ⟨below, found⟩ | ⟨above, found⟩
      · obtain ⟨_, signs, written⟩ :=
          (records.mem_writableSigners_iff key).mp (List.mem_of_getElem? found)
        simp only [signs, written, decide_eq_true_eq]
        omega
      · obtain ⟨_, signs, written⟩ :=
          (records.mem_readonlySigners_iff key).mp (List.mem_of_getElem? found)
        simp only [List.length_append] at below
        simp only [signs, written, decide_eq_true_eq, decide_eq_false_iff_not]
        omega
    · obtain ⟨_, silent, written⟩ :=
        (records.mem_writableOthers_iff key).mp (List.mem_of_getElem? found)
      simp only [List.length_append] at above below
      simp only [silent, written, decide_eq_true_eq, decide_eq_false_iff_not]
      omega
  · obtain ⟨_, silent, unwritten⟩ :=
      (records.mem_readonlyOthers_iff key).mp (List.mem_of_getElem? found)
    simp only [List.length_append] at above
    simp only [silent, unwritten, decide_eq_false_iff_not]
    omega

end LaidOut

end KeyTable

end Transact
