import Transact.Message.LookupTable

/-!
# The keys that places refer to

The places in a message's instructions run through one sequence of keys: those that the message
carries, then the loaded writable ones, then the loaded readonly ones.
-/

namespace Transact

/-- The keys of a message with those that its lookups load. -/
structure AccountKeys where
  /-- The keys that the message carries. -/
  static : List Address
  /-- The keys that its lookups load, if it can have lookups. -/
  loaded : Option LoadedAddresses
deriving DecidableEq

namespace AccountKeys

/-- No keys. -/
def empty : AccountKeys := ⟨[], none⟩

/-- The parts of the sequence, in order. -/
def segments (keys : AccountKeys) : List (List Address) :=
  match keys.loaded with
  | none => [keys.static]
  | some loaded => [keys.static, loaded.writable, loaded.readonly]

/-- The whole sequence. -/
def toList (keys : AccountKeys) : List Address := keys.segments.flatten

/-- The number of keys, summed part by part. -/
def length (keys : AccountKeys) : Nat :=
  keys.segments.foldr (fun segment total => segment.length + total) 0

/-- Whether there is no key. -/
def isEmpty (keys : AccountKeys) : Bool := keys.length == 0

/-- Walk the parts to the one that a place falls in; the place counts from there on. -/
def keyIn : List (List Address) → Nat → Option Address
  | [], _ => none
  | segment :: rest, index =>
    match segment[index]? with
    | some key => some key
    | none => keyIn rest (index - segment.length)

/-- The key at a place. -/
def get? (keys : AccountKeys) (index : Nat) : Option Address := keyIn keys.segments index

/-- Two sets of keys are equal as sequences when no place tells them apart, however they are
divided into parts. -/
instance : BEq AccountKeys := ⟨fun first second => first.toList == second.toList⟩

/-- Walking the parts finds what stands in the joined sequence. -/
theorem keyIn_eq (segments : List (List Address)) (index : Nat) :
    keyIn segments index = segments.flatten[index]? := by
  induction segments generalizing index with
  | nil => simp [keyIn]
  | cons segment rest inductionHypothesis =>
    simp only [keyIn, inductionHypothesis, List.flatten_cons, List.getElem?_append]
    by_cases inside : index < segment.length
    · simp [inside]
    · simp [inside]

end AccountKeys

end Transact
