import Transact.Proofs.Outcomes
import Transact.Proofs.Reading

/-!
# What readers accept

A reader is canonical for a way of writing when it takes a value only from the bytes that are
written for it (`Reader.Canonical`). This is the converse of reading back what was written: no value
has a second spelling that would be read as well. A reader that hands its rests to canonical readers
is canonical for their writings one behind the other, so no boundary between two parts can be moved.

The main statements are those about lists (`Reader.canonical_many`) and about compact lengths
(`CompactLength.canonical_decode`), which are accepted only in their shortest spelling.
-/

namespace Transact

namespace Reader

variable {ε α : Type} {read : Reader ε α} {Written : α → Bytes → Prop}

/-- Values are taken only from bytes that are written for them. -/
def Canonical (read : Reader ε α) (Written : α → Bytes → Prop) : Prop :=
  ∀ {input : Bytes} {value : α} {rest : Bytes}, read input = .ok (value, rest) →
    ∃ bytes, Written value bytes ∧ input = bytes ++ rest

/-- What is known of the bytes of every value may be said with less. -/
theorem Canonical.mono {Other : α → Bytes → Prop} (canonical : Canonical read Written)
    (weaker : ∀ value bytes, Written value bytes → Other value bytes) : Canonical read Other := by
  intro input value rest taken
  obtain ⟨bytes, written, spelled⟩ := canonical taken
  exact ⟨bytes, weaker value bytes written, spelled⟩

/-- What two readers take one behind the other stands one behind the other. -/
theorem Canonical.bind {β : Type} (next : α → Reader ε β) {After : α → β → Bytes → Prop}
    (first : Canonical read Written) (second : ∀ value, Canonical (next value) (After value)) :
    Canonical (fun input => do
      let (taken, rest) ← read input
      next taken rest) fun result bytes => ∃ value front behind,
        Written value front ∧ After value result behind ∧ front ++ behind = bytes := by
  intro input result rest taken
  obtain ⟨⟨value, middle⟩, begun, continued⟩ := (Outcome.bind_eq_ok_iff _ _ _).mp taken
  obtain ⟨front, written, rfl⟩ := first begun
  obtain ⟨behind, writtenAfter, rfl⟩ := second value continued
  exact ⟨front ++ behind, ⟨value, front, behind, written, writtenAfter, rfl⟩,
    (List.append_assoc front behind rest).symm⟩

/-- What is made of a value is taken from the bytes of the value. -/
theorem Canonical.map {β : Type} (make : α → β) (canonical : Canonical read Written) :
    Canonical (fun input => do
      let (taken, rest) ← read input
      return (make taken, rest)) fun result bytes =>
        ∃ value, Written value bytes ∧ make value = result := by
  intro input result rest taken
  obtain ⟨⟨value, left⟩, begun, returned⟩ := (Outcome.bind_eq_ok_iff _ _ _).mp taken
  cases returned
  obtain ⟨bytes, written, spelled⟩ := canonical begun
  exact ⟨bytes, ⟨value, written, rfl⟩, spelled⟩

/-- A byte is taken from itself. -/
theorem canonical_byte (short : ε) :
    Canonical (Reader.byte short) fun value bytes => [value] = bytes := by
  intro input value rest taken
  cases input with
  | nil => cases taken
  | cons first others =>
    cases taken
    exact ⟨[value], rfl, rfl⟩

/-- A run of bytes is taken from itself, and it is as long as was asked. -/
theorem canonical_bytes (short : ε) (count : Nat) :
    Canonical (Reader.bytes short count) fun value bytes =>
      value.length = count ∧ value = bytes := by
  intro input value rest taken
  unfold Reader.bytes at taken
  split at taken
  · rename_i answer cut
    cases taken
    obtain ⟨counted, rfl⟩ := (Bytes.cut?_eq_some_iff _ _ _ _).mp cut
    exact ⟨value, ⟨counted, rfl⟩, rfl⟩
  · cases taken

/-- What is made of a block is taken from the bytes of the block. -/
theorem canonical_block_map (short : ε) {n : Nat} (make : FixedList n UInt8 → α)
    (Written : α → Bytes → Prop) (written : ∀ block, Written (make block) block.toList) :
    Canonical (fun input => do
      let (bytes, rest) ← Reader.block short n input
      return (make bytes, rest)) Written := by
  intro input value rest taken
  obtain ⟨⟨block, others⟩, cut, returned⟩ := (Outcome.bind_eq_ok_iff _ _ _).mp taken
  cases returned
  unfold Reader.block at cut
  split at cut
  · rename_i fits
    cases cut
    exact ⟨_, written ⟨input.take n, fits⟩, (List.take_append_drop n input).symm⟩
  · cases cut

/-- A list is taken from writings of its items, one behind the other. -/
theorem canonical_many (canonical : Canonical read Written) (count : Nat) :
    Canonical (many read count) fun list bytes =>
      ∃ parts, List.Forall₂ Written list.toList parts ∧ parts.flatten = bytes := by
  induction count with
  | zero =>
    intro input list rest taken
    cases taken
    exact ⟨[], ⟨[], .nil, rfl⟩, rfl⟩
  | succ count inductionHypothesis =>
    intro input list rest taken
    have step := (many_succ read count input).symm.trans
      ((map_toList_eq_ok_iff _ _ _).mpr taken)
    split at step
    · cases step
    · rename_i item middle first
      obtain ⟨⟨others, last⟩, continued, returned⟩ := (Outcome.map_eq_ok_iff _ _ _).mp step
      obtain ⟨bytes, itemWritten, rfl⟩ := canonical first
      obtain ⟨_, ⟨parts, othersWritten, rfl⟩, rfl⟩ := inductionHypothesis continued
      obtain ⟨items, rfl⟩ := Prod.mk.inj returned
      refine ⟨(bytes :: parts).flatten, ⟨bytes :: parts, ?_, rfl⟩, ?_⟩
      · rw [← items]
        exact .cons itemWritten othersWritten
      · rw [List.flatten_cons, List.append_assoc]

/-- A list of items with a fixed writing is taken from all of these one behind the other. -/
theorem canonical_many_map {write : α → Bytes}
    (canonical : Canonical read fun item bytes => write item = bytes) (count : Nat) :
    Canonical (many read count) fun list bytes => (list.toList.map write).flatten = bytes := by
  intro input list rest taken
  obtain ⟨_, ⟨parts, written, rfl⟩, rfl⟩ := canonical_many canonical count taken
  have parts_eq : list.toList.map write = parts := by
    rw [← List.forall₂_eq_eq_eq, List.forall₂_map_left_iff]
    exact written
  exact ⟨_, congrArg List.flatten parts_eq, rfl⟩

/-- A value counted off the front of an input was read there, and behind it stands what the count
leaves. -/
theorem read_of_counted {input : Bytes} {value : α} {count : Nat}
    (front : ∀ rest, read input = .ok (value, rest) → ∃ bytes, input = bytes ++ rest)
    (taken : counted read input = .ok (value, count)) :
    count ≤ input.length ∧ read input = .ok (value, input.drop count) := by
  unfold counted at taken
  split at taken
  · cases taken
  · rename_i answer rest first
    cases taken
    obtain ⟨bytes, rfl⟩ := front rest first
    have size : (bytes ++ rest).length - rest.length = bytes.length := by simp
    rw [size, List.drop_left]
    exact ⟨by simp, first⟩

/-- An input is read as a whole exactly when nothing is left over. -/
theorem whole_eq_ok_iff (read : Reader ε α) (trailing : Nat → ε) (input : Bytes) (value : α) :
    whole read trailing input = .ok value ↔ read input = .ok (value, []) := by
  unfold whole
  split
  · rename_i fault failed
    simp [failed]
  · rename_i answer taken
    simp [taken]
  · rename_i answer rest more taken
    have left : rest ≠ [] := more
    simp [taken, left]

end Reader

namespace CompactLength

/-- Looking at a byte never finds that the input has ended. -/
theorem visit_ne_insufficientData {position value : Nat} {byte : UInt8} :
    visit position value byte ≠ .error .insufficientData := by
  unfold visit
  split
  · nofun
  · split
    · nofun
    · dsimp only
      split
      · nofun
      · nofun

/-- A length ends with a byte that has no high bit and is zero only if it is the first. -/
theorem eq_of_visit_done {position value total : Nat} {byte : UInt8}
    (visited : visit position value byte = .ok (.done total)) :
    byte.toNat < 128 ∧ (byte.toNat = 0 → position = 0) ∧
      total = value + byte.toNat * Nat.pow 128 position ∧ total ≤ maximum := by
  unfold visit at visited
  split at visited
  · cases visited
  · rename_i shortest
    split at visited
    · cases visited
    · dsimp only at visited
      split at visited
      · cases visited
      · rename_i within
        split at visited
        · rename_i ends
          cases visited
          have small : byte.toNat < 128 := by simpa [UInt8.lt_iff_toNat_lt] using ends
          have low : byte.toNat % 128 = byte.toNat := Nat.mod_eq_of_lt small
          rw [low] at within ⊢
          refine ⟨small, ?_, rfl, Nat.not_lt.mp within⟩
          intro zero
          by_contra behind
          exact shortest ⟨UInt8.toNat_inj.mp zero, behind⟩
        · cases visited

/-- A length goes on behind a byte that has the high bit and is not the third. -/
theorem eq_of_visit_more {position value total : Nat} {byte : UInt8}
    (visited : visit position value byte = .ok (.more total)) :
    128 ≤ byte.toNat ∧ position + 1 < maximumSize ∧
      total = value + byte.toNat % 128 * Nat.pow 128 position ∧ total ≤ maximum := by
  unfold visit at visited
  split at visited
  · cases visited
  · split at visited
    · cases visited
    · rename_i early
      dsimp only at visited
      split at visited
      · cases visited
      · rename_i within
        split at visited
        · cases visited
        · rename_i goesOn
          cases visited
          have high : 128 ≤ byte.toNat := by simpa [UInt8.lt_iff_toNat_lt] using goesOn
          have announces : byte ≥ 128 := UInt8.not_lt.mp goesOn
          refine ⟨high, ?_, rfl, Nat.not_lt.mp within⟩
          by_contra third
          exact early ⟨Nat.not_lt.mp third, announces⟩

/-- What a length is read from, byte by byte: either the first byte ends it, or the length goes on
behind that byte. -/
theorem decodeFrom_eq_ok {position value total : Nat} {input rest : Bytes}
    (decoded : decodeFrom position value input = .ok (total, rest)) :
    ∃ byte others, input = byte :: others ∧
      ((visit position value byte = .ok (.done total) ∧ rest = others) ∨
        ∃ middle, visit position value byte = .ok (.more middle) ∧
          decodeFrom (position + 1) middle others = .ok (total, rest)) := by
  cases input with
  | nil => cases decoded
  | cons byte others =>
    refine ⟨byte, others, rfl, ?_⟩
    rw [decodeFrom] at decoded
    split at decoded
    · cases decoded
    · rename_i visited
      cases decoded
      exact Or.inl ⟨visited, rfl⟩
    · rename_i middle visited
      exact Or.inr ⟨middle, visited, decoded⟩

/-- A length is taken only from its shortest spelling.

The length ends at the first, the second or the third byte. In each case its size is known from the
bytes, so it is spelled with as many groups, and the groups are the bytes. -/
theorem canonical_decode :
    Reader.Canonical decode fun length bytes => encode length = .ok bytes := by
  intro input length rest decoded
  have none_above : Nat.pow 128 0 = 1 := rfl
  have one_above : Nat.pow 128 (0 + 1) = 128 := rfl
  have two_above : Nat.pow 128 (0 + 1 + 1) = 16384 := rfl
  have spelled : ∀ (byte : UInt8) {number : Nat}, number = byte.toNat →
      UInt8.ofNat number = byte := by
    rintro byte _ rfl
    exact UInt8.ofNat_toNat
  simp only [encode_eq_ok_iff]
  obtain ⟨first, others, rfl, ⟨ends, rfl⟩ | ⟨low, goesOn, decoded⟩⟩ := decodeFrom_eq_ok decoded
  · obtain ⟨small, _, total, within⟩ := eq_of_visit_done ends
    rw [none_above] at total
    refine ⟨[first], ⟨within, ?_⟩, rfl⟩
    rw [groups, if_pos (by omega), spelled first (by omega)]
  obtain ⟨firstHigh, _, low_eq, _⟩ := eq_of_visit_more goesOn
  have firstBound := first.toNat_lt
  obtain ⟨second, others, rfl, ⟨ends, rfl⟩ | ⟨middle, goesOn, decoded⟩⟩ :=
    decodeFrom_eq_ok decoded
  · obtain ⟨small, shortest, total, within⟩ := eq_of_visit_done ends
    rw [none_above] at low_eq
    rw [one_above] at total
    refine ⟨[first, second], ⟨within, ?_⟩, rfl⟩
    rw [groups, if_neg (by omega), if_pos (by omega), spelled first (by omega),
      spelled second (by omega)]
  obtain ⟨secondHigh, _, middle_eq, _⟩ := eq_of_visit_more goesOn
  have secondBound := second.toNat_lt
  obtain ⟨third, others, rfl, ⟨ends, rfl⟩ | ⟨high, goesOn, _⟩⟩ := decodeFrom_eq_ok decoded
  · obtain ⟨small, shortest, total, within⟩ := eq_of_visit_done ends
    rw [none_above] at low_eq
    rw [one_above] at middle_eq
    rw [two_above] at total
    refine ⟨[first, second, third], ⟨within, ?_⟩, rfl⟩
    rw [groups, if_neg (by omega), if_neg (by omega), spelled first (by omega),
      spelled second (by omega), spelled third (by omega)]
  · obtain ⟨_, early, _⟩ := eq_of_visit_more goesOn
    exact absurd early (by decide)

end CompactLength

end Transact
