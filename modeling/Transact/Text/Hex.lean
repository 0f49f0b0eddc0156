import Transact.Bytes

/-!
# Hexadecimal text

Two digits a byte, high half first. Reading takes both letter cases. Key pairs are read from it.
-/

namespace Transact.Hex

/-- The value of a hexadecimal digit, in either case. -/
def digit? (letter : Char) : Option UInt8 :=
  if '0' ≤ letter ∧ letter ≤ '9' then some (letter.toNat - '0'.toNat).toUInt8
  else if 'a' ≤ letter ∧ letter ≤ 'f' then some (letter.toNat - 'a'.toNat + 10).toUInt8
  else if 'A' ≤ letter ∧ letter ≤ 'F' then some (letter.toNat - 'A'.toNat + 10).toUInt8
  else none

/-- The digit of a value below sixteen, in lower case. -/
def letter (value : UInt8) : Char :=
  if value < 10 then Char.ofNat ('0'.toNat + value.toNat)
  else Char.ofNat ('a'.toNat + (value.toNat - 10))

/-- Write bytes in lower case. -/
def encode (bytes : Bytes) : String :=
  String.ofList (bytes.flatMap fun byte => [letter (byte / 16), letter (byte % 16)])

/-- Read pairs of digits, keeping what was read so far in reverse. -/
def decodePairs (read : Bytes) : List Char → Option Bytes
  | [] => some read.reverse
  | [_] => none
  | high :: low :: rest =>
    match digit? high, digit? low with
    | some upper, some lower => decodePairs ((16 * upper + lower) :: read) rest
    | _, _ => none

/-- Read a text of whole bytes. An odd number of digits and any other character are refused. -/
def decode (text : String) : Option Bytes := decodePairs [] text.toList

end Transact.Hex
