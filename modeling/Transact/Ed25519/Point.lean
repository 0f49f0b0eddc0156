import Transact.Ed25519.Field
import Transact.FixedList

/-!
# Points of the curve

The curve is `-x² + y² = 1 + d·x²·y²`. A point is kept as a fraction, with the product of its
coordinates beside it, so that adding two points needs no division; the same formula serves for
doubling and for every other pair.

A point is written as the 32 bytes of its `y` with the parity of its `x` in the top bit. Reading
takes any `y` below `2 ^ 255` and reduces it.
-/

namespace Transact.Ed25519

/-- The constant of the curve's equation, `-121665/121666`. -/
def curveConstant : Field := -121665 * Field.inverse 121666

/-- A point of the curve as `(x/z, y/z)` with `t = x·y/z`. -/
structure Point where
  /-- The numerator of the first coordinate. -/
  x : Field
  /-- The numerator of the second coordinate. -/
  y : Field
  /-- The common denominator. -/
  z : Field
  /-- The product of the numerators over the denominator. -/
  t : Field

namespace Point

/-- The point `(0, 1)`, which adds nothing. -/
def zero : Point := ⟨0, 1, 1, 0⟩

/-- The point with given coordinates. -/
def ofCoordinates (x y : Field) : Point := ⟨x, y, 1, x * y⟩

/-- Twice the constant of the curve's equation. -/
def doubledConstant : Field := 2 * curveConstant

/-- The sum of two points. -/
def add (first second : Point) : Point :=
  let a := (first.y - first.x) * (second.y - second.x)
  let b := (first.y + first.x) * (second.y + second.x)
  let c := first.t * doubledConstant * second.t
  let d := 2 * first.z * second.z
  let e := b - a
  let f := d - c
  let g := d + c
  let h := b + a
  ⟨e * f, g * h, f * g, e * h⟩

/-- The point on the other side of the axis. -/
def negate (point : Point) : Point := ⟨-point.x, point.y, point.z, -point.t⟩

/-- A multiple of a point, by a factor of no more than `bits` bits. -/
def scale (point : Point) : (bits : Nat) → (factor : Nat) → Point
  | 0, _ => zero
  | bits + 1, factor =>
    let half := point.scale bits (factor / 2)
    let double := half.add half
    if factor % 2 = 1 then double.add point else double

/-- Whether a point is the one that adds nothing. -/
def isZero (point : Point) : Bool := point.x == 0 && point.y == point.z

/-- Whether eight times a point is nothing. Such points prove nothing about who signed. -/
def isSmall (point : Point) : Bool := (point.scale 4 8).isZero

/-- The 32 bytes of a point. -/
def encode (point : Point) : FixedList 32 UInt8 :=
  let inverse := Field.inverse point.z
  let x := point.x * inverse
  let y := point.y * inverse
  FixedList.ofNat 32 (y.val + x.val % 2 * Nat.pow 2 255)

/-- The point that 32 bytes stand for, if some point has the `y` that they hold. -/
def decode (bytes : FixedList 32 UInt8) : Option Point :=
  let number := Bytes.toNat bytes.toList
  let y := Fin.ofNat prime (number % Nat.pow 2 255)
  let squared := y * y
  match Field.root? ((squared - 1) * Field.inverse (curveConstant * squared + 1)) with
  | none => none
  | some root =>
    let x := if root.val % 2 = number / Nat.pow 2 255 then root else -root
    some (ofCoordinates x y)

/-- The point that all multiples are taken of: the one with `y = 4/5` and an even `x`. -/
def base : Point :=
  let y : Field := 4 * Field.inverse 5
  match decode (FixedList.ofNat 32 y.val) with
  | some point => point
  | none => zero

end Point

end Transact.Ed25519
