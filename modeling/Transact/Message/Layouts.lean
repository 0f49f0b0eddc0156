import Transact.Message.Versioned
import Transact.Signature

/-!
# Payload layouts of the message types

The types that make up a message, and keys and signatures by themselves, as shapes of the payload
format. A message's lists stand behind compact lengths, so the binary form of a layout has the
bytes of the wire form; an instruction is not part of any message and its lists have plain counts.
-/

namespace Transact

open Payload

/-- A run of bytes behind a compact length. -/
def Payload.Shape.compactBytes : Shape := .compactSequence .byte

instance : Layout Address where
  shape := .array 32 .byte
  toValue address := address.bytes
  ofValue bytes := ⟨bytes⟩
  ofValue_toValue _ := rfl
  toValue_ofValue _ := rfl

instance : Layout Hash where
  shape := .array 32 .byte
  toValue hash := hash.bytes
  ofValue bytes := ⟨bytes⟩
  ofValue_toValue _ := rfl
  toValue_ofValue _ := rfl

instance : Layout Signature where
  shape := .array 64 .byte
  toValue signature := signature.bytes
  ofValue bytes := ⟨bytes⟩
  ofValue_toValue _ := rfl
  toValue_ofValue _ := rfl

/-- Lists behind a compact length are laid out item by item. -/
@[reducible] def Payload.Layout.compactList (α : Type) [Layout α] : Layout (List α) where
  shape := .compactSequence (Layout.shape α)
  toValue items := items.map Layout.toValue
  ofValue values := List.map Layout.ofValue (α := (Layout.shape α).Value) values
  ofValue_toValue items := by
    rw [List.map_map]
    exact List.map_id'' Layout.ofValue_toValue items
  toValue_ofValue values := by
    refine (List.map_map (α := (Layout.shape α).Value)).trans ?_
    exact List.map_id'' (α := (Layout.shape α).Value) Layout.toValue_ofValue values

/-- Lists behind a plain count are laid out item by item. -/
@[reducible] def Payload.Layout.list (α : Type) [Layout α] : Layout (List α) where
  shape := .sequence (Layout.shape α)
  toValue items := items.map Layout.toValue
  ofValue values := List.map Layout.ofValue (α := (Layout.shape α).Value) values
  ofValue_toValue items := by
    rw [List.map_map]
    exact List.map_id'' Layout.ofValue_toValue items
  toValue_ofValue values := by
    refine (List.map_map (α := (Layout.shape α).Value)).trans ?_
    exact List.map_id'' (α := (Layout.shape α).Value) Layout.toValue_ofValue values

instance : Layout MessageHeader where
  shape := .record (.cons "numRequiredSignatures" .byte
    (.cons "numReadonlySignedAccounts" .byte (.cons "numReadonlyUnsignedAccounts" .byte .nil)))
  toValue header := (header.numRequiredSignatures, header.numReadonlySignedAccounts,
    header.numReadonlyUnsignedAccounts, ())
  ofValue := fun (signers, readonlySigners, readonlyOthers, ()) =>
    ⟨signers, readonlySigners, readonlyOthers⟩
  ofValue_toValue _ := rfl
  toValue_ofValue _ := rfl

instance : Layout CompiledInstruction where
  shape := .record (.cons "programIdIndex" .byte
    (.cons "accounts" .compactBytes (.cons "data" .compactBytes .nil)))
  toValue instruction :=
    (instruction.programIdIndex, instruction.accounts, instruction.data, ())
  ofValue := fun (programIdIndex, accounts, data, ()) => { programIdIndex, accounts, data }
  ofValue_toValue _ := rfl
  toValue_ofValue _ := rfl

instance : Layout TableLookup where
  shape := .record (.cons "accountKey" (Layout.shape Address)
    (.cons "writableIndexes" .compactBytes (.cons "readonlyIndexes" .compactBytes .nil)))
  toValue lookup :=
    (Layout.toValue lookup.tableKey, lookup.writableIndexes, lookup.readonlyIndexes, ())
  ofValue := fun (tableKey, writableIndexes, readonlyIndexes, ()) =>
    { tableKey := Layout.ofValue tableKey, writableIndexes, readonlyIndexes }
  ofValue_toValue _ := rfl
  toValue_ofValue _ := rfl

instance : Layout AccountMeta where
  shape := .record (.cons "pubkey" (Layout.shape Address)
    (.cons "isSigner" .boolean (.cons "isWritable" .boolean .nil)))
  toValue account := (Layout.toValue account.address, account.isSigner, account.isWritable, ())
  ofValue := fun (address, isSigner, isWritable, ()) =>
    { address := Layout.ofValue address, isSigner, isWritable }
  ofValue_toValue _ := rfl
  toValue_ofValue _ := rfl

instance : Layout Instruction where
  shape := .record (.cons "programId" (Layout.shape Address)
    (.cons "accounts" (Layout.list AccountMeta).shape (.cons "data" (.sequence .byte) .nil)))
  toValue instruction := (Layout.toValue instruction.programId,
    (Layout.list AccountMeta).toValue instruction.accounts, instruction.data, ())
  ofValue := fun (programId, accounts, data, ()) =>
    { programId := Layout.ofValue programId,
      accounts := (Layout.list AccountMeta).ofValue accounts, data }
  ofValue_toValue instruction := by
    cases instruction
    simp only [Layout.ofValue_toValue]
  toValue_ofValue := fun (_, accounts, _, ()) => by
    simp only [Layout.toValue_ofValue]

/-- The fields that both message formats begin with, before those of `rest`. -/
def LegacyMessage.fields (rest : Fields) : Fields :=
  .cons "header" (Layout.shape MessageHeader)
    (.cons "accountKeys" (Layout.compactList Address).shape
      (.cons "recentBlockhash" (Layout.shape Hash)
        (.cons "instructions" (Layout.compactList CompiledInstruction).shape rest)))

/-- The values of those fields, before those of `rest`. -/
def LegacyMessage.fieldValues (message : LegacyMessage) {rest : Fields} (values : rest.Value) :
    (LegacyMessage.fields rest).Value :=
  (Layout.toValue message.header, (Layout.compactList Address).toValue message.accountKeys,
    Layout.toValue message.recentBlockhash,
    (Layout.compactList CompiledInstruction).toValue message.instructions, values)

/-- The message of those values, and what follows them. -/
def LegacyMessage.ofFieldValues {rest : Fields} (values : (LegacyMessage.fields rest).Value) :
    LegacyMessage × rest.Value :=
  match values with
  | (header, accountKeys, recentBlockhash, instructions, others) =>
    ({ header := Layout.ofValue header,
       accountKeys := (Layout.compactList Address).ofValue accountKeys,
       recentBlockhash := Layout.ofValue recentBlockhash,
       instructions := (Layout.compactList CompiledInstruction).ofValue instructions }, others)

/-- The fields of a message give the message back, and what followed them. -/
theorem LegacyMessage.ofFieldValues_fieldValues (message : LegacyMessage) {rest : Fields}
    (values : rest.Value) : ofFieldValues (message.fieldValues values) = (message, values) := by
  cases message
  simp only [ofFieldValues, fieldValues, Layout.ofValue_toValue]

/-- Every value of the fields is that of a message and what follows. -/
theorem LegacyMessage.fieldValues_ofFieldValues {rest : Fields}
    (values : (LegacyMessage.fields rest).Value) :
    (ofFieldValues values).1.fieldValues (ofFieldValues values).2 = values := by
  obtain ⟨header, accountKeys, recentBlockhash, instructions, others⟩ := values
  simp only [ofFieldValues, fieldValues, Layout.toValue_ofValue]
  rfl

instance : Layout LegacyMessage where
  shape := .record (LegacyMessage.fields .nil)
  toValue message := @LegacyMessage.fieldValues message .nil ()
  ofValue values := (LegacyMessage.ofFieldValues values).1
  ofValue_toValue message := by rw [LegacyMessage.ofFieldValues_fieldValues]
  toValue_ofValue values := @LegacyMessage.fieldValues_ofFieldValues .nil values

instance : Layout V0Message where
  shape := .record (LegacyMessage.fields
    (.cons "addressTableLookups" (Layout.compactList TableLookup).shape .nil))
  toValue message := message.toLegacyMessage.fieldValues
    ((Layout.compactList TableLookup).toValue message.addressTableLookups, ())
  ofValue values :=
    let (message, lookups, ()) := LegacyMessage.ofFieldValues values
    { toLegacyMessage := message,
      addressTableLookups := (Layout.compactList TableLookup).ofValue lookups }
  ofValue_toValue message := by
    simp only [LegacyMessage.ofFieldValues_fieldValues, Layout.ofValue_toValue]
  toValue_ofValue values := by
    simp only [Layout.toValue_ofValue]
    exact LegacyMessage.fieldValues_ofFieldValues values

end Transact
