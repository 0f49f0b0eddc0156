/-!
# The field of the curve

Coordinates are numbers modulo the prime `2 ^ 255 - 19`, kept below it by their type.
-/

namespace Transact.Ed25519

/-- The prime that coordinates are taken modulo. -/
def prime : Nat := Nat.pow 2 255 - 19

/-- There are coordinates, since the prime is not zero. -/
instance primeNeZero : @NeZero Nat Zero.ofOfNat0 prime := ⟨Nat.ne_of_beq_eq_false rfl⟩

/-- A coordinate. -/
abbrev Field := Fin prime

namespace Field

/-- A power whose exponent has no more than `bits` bits. The lowest bit decides about one factor,
the others are the exponent of the square. -/
def pow (base : Field) : (bits : Nat) → (exponent : Nat) → Field
  | 0, _ => 1
  | bits + 1, exponent =>
    let others := pow (base * base) bits (exponent / 2)
    if exponent % 2 = 1 then base * others else others

/-- The inverse of a coordinate, and zero for zero: the power with exponent `prime - 2`. -/
def inverse (value : Field) : Field := pow value 255 (prime - 2)

/-- A square root of minus one. -/
def rootOfMinusOne : Field := pow 2 255 ((prime - 1) / 4)

/-- A square root, if there is one. One power is a root of the number or of its negative; in the
second case the root of minus one makes up for the sign. -/
def root? (square : Field) : Option Field :=
  let candidate := pow square 255 ((prime + 3) / 8)
  if candidate * candidate = square then some candidate
  else
    let other := candidate * rootOfMinusOne
    if other * other = square then some other else none

end Field

end Transact.Ed25519
