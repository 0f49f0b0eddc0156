import Transact.Message.Error

/-!
# Message headers

The keys of a message stand in four groups: writable signers, readonly signers, writable others and
readonly others. The header holds three counts, from which the groups follow, so a key's
permissions follow from its place alone.
-/

namespace Transact

/-- The counts that divide a message's keys into groups. -/
structure MessageHeader where
  /-- How many keys, from the first, must sign. -/
  numRequiredSignatures : UInt8
  /-- How many of the signers, from the last of them, are readonly. -/
  numReadonlySignedAccounts : UInt8
  /-- How many of the other keys, from the last, are readonly. -/
  numReadonlyUnsignedAccounts : UInt8
deriving DecidableEq, Inhabited

namespace MessageHeader

/-- The header of no keys. -/
def zero : MessageHeader := ⟨0, 0, 0⟩

/-- The number of signers. -/
def signers (header : MessageHeader) : Nat := header.numRequiredSignatures.toNat

/-- The number of readonly signers. -/
def readonlySigners (header : MessageHeader) : Nat := header.numReadonlySignedAccounts.toNat

/-- The number of readonly keys that do not sign. -/
def readonlyOthers (header : MessageHeader) : Nat := header.numReadonlyUnsignedAccounts.toNat

/-- Whether a place belongs to a signer. -/
def isSigner (header : MessageHeader) (index : Nat) : Bool := decide (index < header.signers)

/-- Check the counts against the number of keys: somebody signs, the first signer is writable, and
the signers and readonly others are no more than there are keys. -/
def sanitize (header : MessageHeader) (keys : Nat) : Except MessageError Unit :=
  if header.signers = 0 then .error .zeroSigners
  else if header.readonlySigners ≥ header.signers then .error .noWritableFeePayer
  else if header.signers + header.readonlyOthers > keys then
    .error .notEnoughAddressesForSignatures
  else .ok ()

/-- A header passes exactly when all three conditions hold. -/
theorem sanitize_eq_ok_iff (header : MessageHeader) (keys : Nat) :
    header.sanitize keys = .ok () ↔
      header.readonlySigners < header.signers ∧ header.signers + header.readonlyOthers ≤ keys := by
  unfold sanitize
  constructor
  · intro passed
    split at passed
    · cases passed
    · split at passed
      · cases passed
      · split at passed
        · cases passed
        · omega
  · rintro ⟨writable, enough⟩
    rw [if_neg (by omega), if_neg (by omega), if_neg (by omega)]

end MessageHeader

end Transact
