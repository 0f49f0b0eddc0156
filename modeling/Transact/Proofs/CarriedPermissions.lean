import Mathlib.Data.List.Sort
import Transact.Proofs.KeyGroups

/-!
# The permissions of carried keys in both formats

The place of a key that a message carries tells, with the header, whether the key is writable. The
two formats find the bounds of the writable groups in different ways: a legacy message cuts the
readonly others off the whole list of keys, a version 0 message cuts them off the keys behind the
signers, and every such cut ends at nothing where a header counts more keys than there are. All the
same they judge every carried key alike, whatever the header says (`V0Message.isWritablePlace_eq`).

A header that passes its check counts no more than there is. Then the writable places are two ranges
whose bounds are plain differences (`MessageHeader.filter_isWritablePlace`), and behind the last key
neither format finds anything writable as long as nothing is loaded. The main statement,
`Message.permissions_alike`, says all of this of any two messages with the same header, keys and
instructions.
-/

namespace Transact

namespace MessageHeader

/-- The writable places among `keys` keys, in order: the signers but the readonly ones, then the
other keys but the readonly ones. -/
def writablePlaces (header : MessageHeader) (keys : Nat) : List Nat :=
  List.range (header.signers - header.readonlySigners) ++
    List.range' header.signers (keys - header.readonlyOthers - header.signers)

variable {header : MessageHeader} {keys : Nat}

/-- Under a header that counts no more than there is, the places of the two writable groups are
those of `writablePlaces`. Both sides ascend, so they are compared place by place. -/
theorem filter_isWritablePlace (writable : header.readonlySigners < header.signers)
    (enough : header.signers + header.readonlyOthers ≤ keys) :
    (List.range keys).filter (LegacyMessage.isWritablePlace header keys) =
      header.writablePlaces keys := by
  have ascending : (header.writablePlaces keys).Pairwise (· < ·) := by
    rw [writablePlaces, List.pairwise_append]
    refine ⟨List.pairwise_lt_range, List.pairwise_lt_range' 1, ?_⟩
    intro signer among other behind
    rw [List.mem_range] at among
    rw [List.mem_range'_1] at behind
    omega
  have filtered : ((List.range keys).filter
      (LegacyMessage.isWritablePlace header keys)).Pairwise (· < ·) :=
    List.pairwise_lt_range.filter _
  apply filtered.sortedLT.eq_of_mem_iff ascending.sortedLT
  intro index
  rw [List.mem_filter, List.mem_range, LegacyMessage.isWritablePlace, decide_eq_true_iff,
    writablePlaces, List.mem_append, List.mem_range, List.mem_range'_1]
  omega

end MessageHeader

/-- A legacy and a version 0 message judge their carried keys alike. -/
structure Message.PermitAlike (legacy : LegacyMessage) (v0 : V0Message) : Prop where
  /-- They place the same carried keys in the writable groups. -/
  isWritableIndex_eq : ∀ index < legacy.accountKeys.length,
    legacy.isWritableIndex index = v0.isWritableIndex index
  /-- They let the same carried keys be written. -/
  isMaybeWritable_eq : ∀ index < legacy.accountKeys.length,
    legacy.isMaybeWritable index = v0.isMaybeWritable index
  /-- Under a header that passes its check, the writable places among the carried keys are the two
  ranges of the header, no bound of which was cut short. -/
  writablePlaces_eq : legacy.header.sanitize legacy.accountKeys.length = .ok () →
    legacy.header.readonlySigners < legacy.header.signers ∧
    legacy.header.signers ≤ legacy.accountKeys.length - legacy.header.readonlyOthers ∧
    (List.range legacy.accountKeys.length).filter legacy.isWritableIndex =
      legacy.header.writablePlaces legacy.accountKeys.length ∧
    (List.range legacy.accountKeys.length).filter v0.isWritableIndex =
      legacy.header.writablePlaces legacy.accountKeys.length
  /-- Under such a header they judge every place alike when nothing is loaded, also behind the last
  key. -/
  everywhere : legacy.header.sanitize legacy.accountKeys.length = .ok () →
    v0.addressTableLookups = [] → ∀ index,
      legacy.isWritableIndex index = v0.isWritableIndex index ∧
        legacy.isMaybeWritable index = v0.isMaybeWritable index

/-- Messages of both formats with the same header, keys and instructions judge the keys that they
carry alike, whatever the header counts and whatever the version 0 message loads. -/
theorem Message.permissions_alike (header : MessageHeader) (accountKeys : List Address)
    (instructions : List CompiledInstruction) (lookups : List TableLookup)
    (legacyBlockhash v0Blockhash : Hash) :
    Message.PermitAlike ⟨header, accountKeys, legacyBlockhash, instructions⟩
      ⟨⟨header, accountKeys, v0Blockhash, instructions⟩, lookups⟩ := by
  have carriedAlike : ∀ index < accountKeys.length,
      LegacyMessage.isWritablePlace header accountKeys.length index =
        V0Message.isWritablePlace header accountKeys.length
          (V0Message.numLoadedWritable ⟨⟨header, accountKeys, v0Blockhash, instructions⟩, lookups⟩)
          index := fun index carried => (V0Message.isWritablePlace_eq _ _ _ _ carried).symm
  constructor
  case isWritableIndex_eq => exact carriedAlike
  case isMaybeWritable_eq =>
    intro index carried
    exact congrArg (· && _) (carriedAlike index carried)
  case writablePlaces_eq =>
    intro passed
    obtain ⟨writable, enough⟩ := (header.sanitize_eq_ok_iff accountKeys.length).mp passed
    have ranges := MessageHeader.filter_isWritablePlace writable enough
    refine ⟨writable, Nat.le_sub_of_add_le enough, ranges, ?_⟩
    rw [← ranges]
    apply List.filter_congr
    intro index among
    exact (carriedAlike index (List.mem_range.mp among)).symm
  case everywhere =>
    rintro passed rfl index
    obtain ⟨writable, enough⟩ := (header.sanitize_eq_ok_iff accountKeys.length).mp passed
    have placedAlike : LegacyMessage.isWritablePlace header accountKeys.length index =
        V0Message.isWritablePlace header accountKeys.length 0 index := by
      by_cases carried : index < accountKeys.length
      · exact carriedAlike index carried
      · -- Nothing is loaded, and no group of a sane header reaches beyond the keys.
        rw [V0Message.isWritablePlace, if_pos (Nat.le_of_not_lt carried),
          LegacyMessage.isWritablePlace]
        exact decide_eq_decide.mpr (by omega)
    exact ⟨placedAlike, congrArg (· && _) placedAlike⟩

/-- Two signers and three other keys, the last of each group readonly: the first, the third and the
fourth place are writable. -/
theorem Message.permissions_alike_sample :
    MessageHeader.sanitize ⟨2, 1, 1⟩ 5 = .ok () ∧
    Message.PermitAlike
      ⟨⟨2, 1, 1⟩, [.numbered 1, .numbered 2, .numbered 3, .numbered 4, .numbered 5], Hash.zero, []⟩
      ⟨⟨⟨2, 1, 1⟩, [.numbered 1, .numbered 2, .numbered 3, .numbered 4, .numbered 5], Hash.zero, []⟩,
        []⟩ ∧
    MessageHeader.writablePlaces ⟨2, 1, 1⟩ 5 = [0, 2, 3] :=
  ⟨rfl, Message.permissions_alike _ _ _ _ _ _, rfl⟩

end Transact
