import Transact.FixedList

/-!
# Readers

A reader takes a value off the front of an input and hands back the rest, or reports a fault.
Readers compose by handing each rest to the next one, so no position is ever kept and a reader
cannot look behind itself.

The equation `many_succ` says what reading several values means; the definition itself collects
them in reverse so that long runs take constant stack.
-/

namespace Transact

/-- What takes a value off the front of an input. -/
abbrev Reader (ε α : Type) := Bytes → Except ε (α × Bytes)

namespace Reader

variable {ε α : Type}

/-- Take a known number of bytes; `short` is the fault of an input that ends before. -/
def bytes (short : ε) (count : Nat) : Reader ε Bytes := fun input =>
  match Bytes.cut? count input with
  | some taken => .ok taken
  | none => .error short

/-- Take exactly `n` bytes as a list of known length. -/
def block (short : ε) (n : Nat) : Reader ε (FixedList n UInt8) := fun input =>
  if fits : (input.take n).length = n then .ok (⟨input.take n, fits⟩, input.drop n)
  else .error short

/-- Take one byte. -/
def byte (short : ε) : Reader ε UInt8
  | [] => .error short
  | first :: rest => .ok (first, rest)

/-- Take `count` more values, behind those already `taken` in reverse order. -/
def manyOnto (read : Reader ε α) {total : Nat} : (count : Nat) → (taken : List α) →
    taken.length + count = total → Reader ε (FixedList total α)
  | 0, taken, reached, input => .ok (⟨taken.reverse, by simpa using reached⟩, input)
  | count + 1, taken, reached, input =>
    match read input with
    | .error fault => .error fault
    | .ok (item, rest) =>
      manyOnto read count (item :: taken) (by rw [List.length_cons]; omega) rest

/-- Take `count` values with one reader, first value first. -/
def many (read : Reader ε α) (count : Nat) : Reader ε (FixedList count α) :=
  manyOnto read count [] (by simp)

/-- Taking values behind others gives the others first, whatever follows. -/
theorem manyOnto_eq (read : Reader ε α) {total : Nat} (count : Nat) (taken : List α)
    (reached : taken.length + count = total) (input : Bytes) :
    (manyOnto read count taken reached input).map (fun (list, rest) => (list.toList, rest)) =
      (many read count input).map fun (list, rest) => (taken.reverse ++ list.toList, rest) := by
  suffices general : ∀ (before after : List α) (whole part : Nat)
      (outer : (after ++ before).length + count = whole) (inner : after.length + count = part),
      (manyOnto read count (after ++ before) outer input).map
          (fun (list, rest) => (list.toList, rest)) =
        (manyOnto read count after inner input).map
          fun (list, rest) => (before.reverse ++ list.toList, rest) by
    exact general taken [] total count reached (by simp)
  clear reached
  induction count generalizing input with
  | zero =>
    intro before after whole part outer inner
    simp [manyOnto, Except.map]
  | succ count inductionHypothesis =>
    intro before after whole part outer inner
    simp only [manyOnto]
    cases read input with
    | error fault => rfl
    | ok taken =>
      obtain ⟨item, rest⟩ := taken
      exact inductionHypothesis rest before (item :: after) whole part _ _

/-- Taking one value more is taking one and then the others. -/
theorem many_succ (read : Reader ε α) (count : Nat) (input : Bytes) :
    (many read (count + 1) input).map (fun (list, rest) => (list.toList, rest)) =
      match read input with
      | .error fault => .error fault
      | .ok (item, rest) =>
        (many read count rest).map fun (list, rest) => (item :: list.toList, rest) := by
  rw [many, manyOnto]
  cases read input with
  | error fault => rfl
  | ok taken =>
    obtain ⟨item, rest⟩ := taken
    simpa using manyOnto_eq read count [item] _ rest

/-- Read a value that must span the input; `trailing` is the fault of having bytes left over. -/
def whole (read : Reader ε α) (trailing : Nat → ε) (input : Bytes) : Except ε α :=
  match read input with
  | .error fault => .error fault
  | .ok (value, []) => .ok value
  | .ok (_, rest) => .error (trailing rest.length)

/-- Read a value and count the bytes it took. -/
def counted (read : Reader ε α) (input : Bytes) : Except ε (α × Nat) :=
  match read input with
  | .error fault => .error fault
  | .ok (value, rest) => .ok (value, input.length - rest.length)

end Reader

end Transact
