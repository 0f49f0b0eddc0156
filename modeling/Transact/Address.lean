import Std.Data.TreeSet
import Transact.Text.Base58

/-!
# Addresses

An address names an account: 32 bytes, shown in base 58. The zero address stands for "nobody".
Addresses are ordered by their first differing byte, which also makes repeats in a long list cheap
to find (`hasDuplicates_eq_false_iff`).
-/

namespace Transact

/-- The name of an account. -/
structure Address where
  /-- Its 32 bytes. -/
  bytes : FixedList 32 UInt8
deriving DecidableEq

namespace Address

/-- The longest text of 32 bytes. -/
abbrev maxTextLength : Nat := 44

/-- The address of 32 zero bytes. -/
def zero : Address := ⟨FixedList.replicate 32 0⟩

instance : Inhabited Address := ⟨zero⟩

/-- The bytes as a plain byte string. -/
def toBytes (address : Address) : Bytes := address.bytes.toList

@[simp] theorem length_toBytes (address : Address) : address.toBytes.length = 32 :=
  address.bytes.length_toList

/-- Admit exactly 32 bytes. -/
def ofBytes (bytes : Bytes) : Except WrongLength Address :=
  (FixedList.ofList 32 bytes).map Address.mk

/-- Whether this is the zero address. -/
def isZero (address : Address) : Bool := address == zero

section Text

variable [Base58.Converter 32 44]

/-- The base 58 text, if the converter makes letters that fit. -/
def text? (address : Address) : Option String := Base58.write? maxTextLength address.bytes

/-- The base 58 text, which is empty where there is none. -/
def text (address : Address) : String := address.text?.getD ""

instance : ToString Address := ⟨text⟩

/-- Read the base 58 text. -/
def parse (text : String) : Except Base58.DecodeError Address :=
  (Base58.read 32 maxTextLength text).map Address.mk

end Text

/-- The report of a text that is no address. -/
def parseReport : Base58.DecodeError → String
  | .wrongSize => "String is the wrong size"
  | .invalidLetter => "Invalid Base58 string"

/-- Addresses are ordered by their first differing byte. -/
instance : Ord Address := ⟨fun first second => compare first.toBytes second.toBytes⟩

/-- No information is lost by comparing addresses as byte strings. -/
theorem toBytes_inj {first second : Address} (same : first.toBytes = second.toBytes) :
    first = second := by
  cases first
  cases second
  exact congrArg Address.mk (FixedList.ext same)

instance : Std.TransOrd Address where
  eq_swap := Std.OrientedOrd.eq_swap (α := Bytes)
  isLE_trans := Std.TransOrd.isLE_trans (α := Bytes)

instance : Std.LawfulEqOrd Address where
  compare_self := Std.ReflOrd.compare_self (α := Bytes)
  eq_of_compare same := toBytes_inj (Std.LawfulEqOrd.eq_of_compare (α := Bytes) same)

/-- A list of addresses in ascending order. -/
def sort (addresses : List Address) : List Address :=
  addresses.mergeSort fun first second => (compare first second).isLE

/-- Whether a list holds an address that was seen before or holds one twice. -/
def repeats (seen : Std.TreeSet Address) : List Address → Bool
  | [] => false
  | address :: rest => seen.contains address || repeats (seen.insert address) rest

/-- Whether a list holds an address twice. -/
def hasDuplicates (addresses : List Address) : Bool := repeats ∅ addresses

/-- A list repeats nothing exactly when its addresses are new and pairwise distinct. -/
theorem repeats_eq_false_iff (seen : Std.TreeSet Address) (addresses : List Address) :
    repeats seen addresses = false ↔
      (∀ address ∈ addresses, address ∉ seen) ∧ addresses.Nodup := by
  induction addresses generalizing seen with
  | nil => simp [repeats]
  | cons address rest inductionHypothesis =>
    have unseen : seen.contains address = false ↔ address ∉ seen := by
      rw [Std.TreeSet.mem_iff_contains, Bool.not_eq_true]
    simp only [repeats, Bool.or_eq_false_iff, inductionHypothesis, List.nodup_cons,
      List.forall_mem_cons, Std.TreeSet.mem_insert, unseen, Std.LawfulEqCmp.compare_eq_iff_eq]
    grind

/-- The search for repeats finds none exactly when the addresses are pairwise distinct. -/
theorem hasDuplicates_eq_false_iff (addresses : List Address) :
    hasDuplicates addresses = false ↔ addresses.Nodup := by
  simp [hasDuplicates, repeats_eq_false_iff]

/-- The address whose first eight bytes spell a number, most significant first, before 24 zero
bytes. In this form the order of addresses is the order of the numbers. -/
def numbered (number : Nat) : Address :=
  ⟨(FixedList.ofNat 8 number).reverse.append (FixedList.replicate 24 0)⟩

/-- Draw the next address from a counter, which never gives the same one twice until it wraps. -/
def unique (counter : UInt64) : Address × UInt64 := (numbered counter.toNat, counter + 1)

end Address

end Transact
