import Transact.Bytes

/-!
# Lists of a known length

Keys, hashes and signatures are byte strings whose length is part of what they are. A
`FixedList n α` carries the proof of its length, so no function on one has to ask again.
-/

namespace Transact

/-- A list together with the proof that it has `n` items. -/
structure FixedList (n : Nat) (α : Type) where
  /-- The items, first item first. -/
  toList : List α
  /-- There are exactly `n` of them. -/
  length_toList : toList.length = n
deriving DecidableEq

/-- Why a list is not a fixed list: it has this many items instead. -/
structure WrongLength where
  /-- The number of items that were offered. -/
  actual : Nat
deriving DecidableEq

namespace WrongLength

/-- The wording where only the fact of the mismatch is reported. -/
def report (_ : WrongLength) : String := "could not convert slice to array"

/-- The wording where the report is the offending length alone. -/
def lengthReport (mismatch : WrongLength) : String := toString mismatch.actual

end WrongLength

namespace FixedList

variable {α : Type} {n : Nat}

/-- Two fixed lists with the same items are equal, since the length proof carries no data. -/
@[ext] theorem ext {first second : FixedList n α} (same : first.toList = second.toList) :
    first = second := by
  cases first
  cases second
  cases same
  rfl

/-- Admit a list of exactly the right length. -/
def ofList (n : Nat) (items : List α) : Except WrongLength (FixedList n α) :=
  if fits : items.length = n then .ok ⟨items, fits⟩ else .error ⟨items.length⟩

/-- Admission succeeds exactly on the underlying list of the answer. -/
theorem ofList_eq_ok_iff (items : List α) (list : FixedList n α) :
    ofList n items = .ok list ↔ list.toList = items := by
  unfold ofList
  constructor
  · intro admitted
    by_cases fits : items.length = n
    · rw [dif_pos fits] at admitted
      cases admitted
      rfl
    · rw [dif_neg fits] at admitted
      cases admitted
  · rintro rfl
    rw [dif_pos list.length_toList]

/-- The list that holds one item `n` times. -/
def replicate (n : Nat) (item : α) : FixedList n α :=
  ⟨List.replicate n item, List.length_replicate⟩

/-- A number as exactly `n` bytes, least significant first. -/
def ofNat (n : Nat) (value : Nat) : FixedList n UInt8 :=
  ⟨Bytes.ofNat n value, Bytes.length_ofNat n value⟩

/-- The same items in the opposite order. -/
def reverse (list : FixedList n α) : FixedList n α :=
  ⟨list.toList.reverse, list.toList.length_reverse.trans list.length_toList⟩

variable {m : Nat}

/-- One list after another; the lengths add. -/
def append (first : FixedList n α) (second : FixedList m α) : FixedList (n + m) α :=
  ⟨first.toList ++ second.toList, by
    rw [List.length_append, first.length_toList, second.length_toList]⟩

/-- The first `n` items. -/
def front (list : FixedList (n + m) α) : FixedList n α :=
  ⟨list.toList.take n, by rw [List.length_take, list.length_toList]; omega⟩

/-- The items after the first `n`. -/
def back (list : FixedList (n + m) α) : FixedList m α :=
  ⟨list.toList.drop n, by rw [List.length_drop, list.length_toList]; omega⟩

/-- A list is its front before its back. -/
theorem append_front_back (list : FixedList (n + m) α) : list.front.append list.back = list :=
  ext (List.take_append_drop n list.toList)

@[simp] theorem front_append (first : FixedList n α) (second : FixedList m α) :
    (first.append second).front = first :=
  ext (List.take_left' first.length_toList)

@[simp] theorem back_append (first : FixedList n α) (second : FixedList m α) :
    (first.append second).back = second :=
  ext (List.drop_left' first.length_toList)

end FixedList

end Transact
