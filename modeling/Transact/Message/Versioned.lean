import Transact.Message.V0

/-!
# Messages of either format
-/

namespace Transact

/-- A message of either format. -/
inductive Message where
  /-- One that carries all of its keys. -/
  | legacy (message : LegacyMessage)
  /-- One that loads some of its keys from tables. -/
  | v0 (message : V0Message)
deriving DecidableEq

namespace Message

instance : Inhabited Message := ⟨.legacy LegacyMessage.empty⟩

/-- The part that both formats have in common. -/
def common : Message → LegacyMessage
  | .legacy message => message
  | .v0 message => message.toLegacyMessage

/-- The same message with another common part. -/
def withCommon (message : Message) (common : LegacyMessage) : Message :=
  match message with
  | .legacy _ => .legacy common
  | .v0 message => .v0 { message with toLegacyMessage := common }

/-- The header. -/
def header (message : Message) : MessageHeader := message.common.header

/-- The keys that the message carries. -/
def staticAccountKeys (message : Message) : List Address := message.common.accountKeys

/-- The hash of a recent block. -/
def recentBlockhash (message : Message) : Hash := message.common.recentBlockhash

/-- The same message with another recent block. -/
def setRecentBlockhash (message : Message) (hash : Hash) : Message :=
  message.withCommon { message.common with recentBlockhash := hash }

/-- The instructions. -/
def instructions (message : Message) : List CompiledInstruction := message.common.instructions

/-- The lookups, if the format has them. -/
def addressTableLookups? : Message → Option (List TableLookup)
  | .legacy _ => none
  | .v0 message => some message.addressTableLookups

/-- The version number; the first format has none. -/
def version? : Message → Option Nat
  | .legacy _ => none
  | .v0 _ => some 0

/-- The first signer pays. -/
def feePayer? (message : Message) : Option Address := message.common.feePayer?

/-- Whether the key at a place signs. -/
def isSigner (message : Message) (index : Nat) : Bool := message.common.isSigner index

/-- Whether the key at a place stands in a writable group or is loaded as writable. -/
def isWritableIndex : Message → Nat → Bool
  | .legacy message => message.isWritableIndex
  | .v0 message => message.isWritableIndex

/-- Whether the key at a place is the program of some instruction. -/
def isKeyCalledAsProgram (message : Message) (index : Nat) : Bool :=
  message.common.isKeyCalledAsProgram index

/-- Whether the key at a place may be written. -/
def isMaybeWritable : Message → Nat → Bool
  | .legacy message => message.isMaybeWritable
  | .v0 message => message.isMaybeWritable

/-- The keys that must sign, as far as there are keys. -/
def signerKeys (message : Message) : List Address := message.common.signerKeys

/-- Check that the parts of the message agree with each other. -/
def sanitize : Message → Except MessageError Unit
  | .legacy message => message.sanitize
  | .v0 message => message.sanitize

end Message

end Transact
