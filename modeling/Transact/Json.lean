/-!
# JSON values

A JSON document as a value. A number that is written with a fraction or an exponent is kept apart
from an integer, even where the two are equal, because a field that wants an integer refuses it.
Documents are what the JSON form of payloads is written as; parsing and printing them is left to
others.
-/

namespace Transact

/-- A JSON document. -/
inductive Json where
  /-- The word `null`. -/
  | null
  /-- A truth value. -/
  | bool (flag : Bool)
  /-- A number written as an integer. -/
  | integer (number : Int)
  /-- A number written with a fraction or an exponent: `digits / 10 ^ places`. -/
  | decimal (digits : Int) (places : Nat)
  /-- A text. -/
  | text (text : String)
  /-- A list of documents. -/
  | array (items : List Json)
  /-- Documents under names. -/
  | object (members : List (String × Json))
deriving Inhabited

namespace Json

/-- The integer, if this is one. -/
def integer? : Json → Option Int
  | .integer number => some number
  | _ => none

/-- The items, if this is a list. -/
def items? : Json → Option (List Json)
  | .array items => some items
  | _ => none

end Json

end Transact
