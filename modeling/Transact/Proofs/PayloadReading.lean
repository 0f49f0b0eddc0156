import Transact.Message.Layouts
import Transact.Proofs.ReadMessages

/-!
# Reading the payload form beside the wire form

The payload form of a message is read by its shape, the wire form part by part. Two readings of one
input end alike when both take a value and leave the same bytes, or both fail and the faults say the
same (`Payload.EndsAlike`). Readings that end alike can be continued by readings that end alike, so
each part is compared once and whole messages follow their fields.

The main statements compare the messages of both formats (`LegacyMessage.endsAlike_readCommon`,
`V0Message.endsAlike_readStrict`). For version 0 the reading is the strict one, which expects the
lookups also where the input has ended (`V0Message.readStrict`).
-/

namespace Transact

/-- The list of what each item is made into. -/
def FixedList.map {n : Nat} {α β : Type} (make : α → β) (list : FixedList n α) : FixedList n β :=
  ⟨list.toList.map make, by rw [List.length_map, list.length_toList]⟩

namespace Reader

variable {ε : Type}

/-- Byte by byte an input that is too short runs out. -/
theorem manyOnto_byte_of_short (short : ε) {count total : Nat} {taken : Bytes}
    (reached : taken.length + count = total) {input : Bytes} (ends : input.length < count) :
    manyOnto (byte short) count taken reached input = .error short := by
  induction count generalizing taken input with
  | zero => omega
  | succ count inductionHypothesis =>
    cases input with
    | nil => rfl
    | cons first rest =>
      rw [List.length_cons] at ends
      exact inductionHypothesis _ (by omega)

/-- A block is as many bytes taken one by one. -/
theorem many_byte_eq_block (short : ε) (count : Nat) (input : Bytes) :
    many (byte short) count input = block short count input := by
  by_cases enough : count ≤ input.length
  · obtain ⟨front, rest, rfl, rfl⟩ : ∃ front rest, front.length = count ∧ input = front ++ rest :=
      ⟨input.take count, input.drop count, List.length_take_of_le enough,
        (List.take_append_drop count input).symm⟩
    have each : ∀ item, Reads (byte short) [item] item := fun _ _ => rfl
    have listed := reads_many_map each front rest
    rw [← List.flatMap_def, List.flatMap_singleton'] at listed
    exact listed.trans (reads_block short ⟨front, rfl⟩ rest).symm
  · have ends : input.length < count := Nat.lt_of_not_le enough
    have unfit : (input.take count).length ≠ count := by
      rw [List.length_take]
      omega
    rw [block, dif_neg unfit]
    exact manyOnto_byte_of_short short _ ends

end Reader

namespace CompactLength

/-- A length that is written is a number of 16 bits. -/
theorem toNat_ofNat_of_encode {length : Nat} {bytes : Bytes}
    (written : encode length = .ok bytes) : (UInt16.ofNat length).toNat = length := by
  have within : length ≤ maximum := ((encode_eq_ok_iff _ _).mp written).1
  rw [UInt16.toNat_ofNat']
  exact Nat.mod_eq_of_lt (Nat.lt_succ_of_le within)

/-- Gathering a length from the bytes of an input is reading it, with the faults renamed. It never
uses up the bytes it may take, since the last of them ends the length or is a fault. -/
theorem gather_byte_eq {ε : Type} (short : ε) (refuse : Error → ε) {left position : Nat}
    (allowed : position + left = maximumSize) (some_left : 0 < left) (value : Nat)
    (input : Bytes) :
    gather (Reader.byte short) refuse left position value input =
      match decodeFrom position value input with
      | .ok (total, rest) => .ok (UInt16.ofNat total, rest)
      | .error .insufficientData => .error short
      | .error fault => .error (refuse fault) := by
  induction left generalizing position value input with
  | zero => omega
  | succ left inductionHypothesis =>
    cases input with
    | nil => rfl
    | cons byte rest =>
      rw [gather, Reader.byte, decodeFrom]
      dsimp only
      cases visited : visit position value byte with
      | error fault =>
        cases fault with
        | insufficientData => exact absurd visited visit_ne_insufficientData
        | tooLong => rfl
        | overflow total => rfl
        | redundant => rfl
      | ok progress =>
        cases progress with
        | done total => rfl
        | more total =>
          have early := (eq_of_visit_more visited).2.1
          exact inductionHypothesis (by omega) (by omega) total rest

end CompactLength

/-- Take the items of a list behind their count. -/
def Wire.readList {α : Type} (read : Reader MessageError α) : Reader MessageError (List α) :=
  fun input => do
    let (count, rest) ← readCount input
    let (items, rest) ← Reader.many read count rest
    return (items.toList, rest)

namespace Payload

/-- A block is read in one piece, though its shape has it byte by byte. -/
theorem Shape.decode_block (count : Nat) (input : Bytes) :
    (Shape.array count .byte).decode input = Reader.block .insufficientData count input :=
  Reader.many_byte_eq_block _ _ _

/-- A list behind a compact length is read as the length and as many items. -/
theorem Shape.decode_compactSequence (inner : Shape) (input : Bytes) :
    (Shape.compactSequence inner).decode input = (do
      let (count, rest) ← readCompactLength input
      let (items, rest) ← Reader.many inner.decode count.toNat rest
      return (items.toList, rest)) := rfl

/-- A record is read field by field. -/
theorem Shape.decode_record (fields : Fields) : (Shape.record fields).decode = fields.decode := rfl

/-- A component is read before those behind it. -/
theorem Fields.decode_cons (name : String) (shape : Shape) (fields : Fields) (input : Bytes) :
    (Fields.cons name shape fields).decode input = (do
      let (value, rest) ← shape.decode input
      let (values, rest) ← fields.decode rest
      return ((value, values), rest)) := rfl

/-- A fault of the wire form and a fault of the payload form say the same. -/
inductive SameFault : MessageError → Error → Prop
  /-- The input ended too soon. -/
  | short : SameFault .bufferTooSmall .insufficientData
  /-- A count is not written as counts are. -/
  | count (fault : CompactLength.Error) :
    SameFault (.invalidCompactLength fault) (.custom fault.report)

variable {α β γ δ : Type} {make : β → α} {whole : δ → γ}

/-- Two readings of one input end alike: both take a value and leave the same bytes, where the one
value is made of the other, or both fail and the faults say the same. -/
inductive EndsAlike (make : β → α) :
    Except MessageError (α × Bytes) → Except Error (β × Bytes) → Prop
  /-- Both took a value. -/
  | taken (value : β) (rest : Bytes) : EndsAlike make (.ok (make value, rest)) (.ok (value, rest))
  /-- Both failed. -/
  | failed {fault : MessageError} {other : Error} (same : SameFault fault other) :
    EndsAlike make (.error fault) (.error other)

namespace EndsAlike

/-- Readings that take values of which the one is made of the other end alike. -/
theorem of_eq {item : α} {value : β} {rest : Bytes} (same : item = make value) :
    EndsAlike make (.ok (item, rest)) (.ok (value, rest)) := by
  subst same
  exact .taken value rest

variable {wire : Except MessageError (α × Bytes)} {payload : Except Error (β × Bytes)}

/-- Readings that end alike can be continued by readings that end alike. -/
theorem bind {next : α × Bytes → Except MessageError (γ × Bytes)}
    {after : β × Bytes → Except Error (δ × Bytes)} (first : EndsAlike make wire payload)
    (others : ∀ value rest, EndsAlike whole (next (make value, rest)) (after (value, rest))) :
    EndsAlike whole (wire >>= next) (payload >>= after) := by
  cases first with
  | taken value rest => exact others value rest
  | failed same => exact .failed same

/-- A component and those behind it are read alike when each of them is. -/
theorem cons {name : String} {shape : Shape} {fields : Fields} {make : shape.Value → α}
    {whole : (Fields.cons name shape fields).Value → γ} {input : Bytes}
    {next : α × Bytes → Except MessageError (γ × Bytes)}
    (first : EndsAlike make wire (shape.decode input))
    (others : ∀ value rest, EndsAlike (fun values => whole (value, values))
      (next (make value, rest)) (fields.decode rest)) :
    EndsAlike whole (wire >>= next) ((Fields.cons name shape fields).decode input) := by
  rw [Fields.decode_cons]
  refine first.bind fun value rest => ?_
  have continued := others value rest
  generalize next (make value, rest) = wireEnd at continued ⊢
  dsimp only
  generalize fields.decode rest = payloadEnd at continued ⊢
  cases continued with
  | taken values left => exact .of_eq rfl
  | failed same => exact .failed same

/-- Readings of items that end alike make readings of lists that do, whatever was taken before. -/
theorem manyOnto {read : Reader MessageError α} {decode : Reader Error β}
    (each : ∀ input, EndsAlike make (read input) (decode input)) {count total : Nat}
    (taken : List β) (reached : taken.length + count = total) (input : Bytes) :
    EndsAlike (FixedList.map make)
      (Reader.manyOnto read count (taken.map make) (by rwa [List.length_map]) input)
      (Reader.manyOnto decode count taken reached input) := by
  induction count generalizing taken input with
  | zero => exact .of_eq (FixedList.ext List.map_reverse.symm)
  | succ count inductionHypothesis =>
    rw [Reader.manyOnto, Reader.manyOnto]
    have first := each input
    generalize read input = wireEnd at first ⊢
    generalize decode input = payloadEnd at first ⊢
    cases first with
    | taken value rest => exact inductionHypothesis (value :: taken) _ rest
    | failed same => exact .failed same

/-- Readings of items that end alike make readings of lists that do. -/
theorem many {read : Reader MessageError α} {decode : Reader Error β}
    (each : ∀ input, EndsAlike make (read input) (decode input)) (count : Nat) (input : Bytes) :
    EndsAlike (FixedList.map make) (Reader.many read count input)
      (Reader.many decode count input) :=
  manyOnto each [] _ input

end EndsAlike

section Parts

/-- A byte is read alike. -/
theorem endsAlike_byte (input : Bytes) :
    EndsAlike id (Reader.byte .bufferTooSmall input) (Shape.byte.decode input) := by
  cases input with
  | nil => exact .failed .short
  | cons first rest => exact .of_eq rfl

/-- What is made of a block is read alike, in one piece or byte by byte. -/
theorem endsAlike_block {n : Nat} (make : FixedList n UInt8 → α) (input : Bytes) :
    EndsAlike make
      (do
        let (bytes, rest) ← Reader.block .bufferTooSmall n input
        return (make bytes, rest))
      ((Shape.array n .byte).decode input) := by
  rw [Shape.decode_block, Reader.block, Reader.block]
  split
  · exact .of_eq rfl
  · exact .failed .short

/-- The count in front of a list is read alike. -/
theorem endsAlike_count (input : Bytes) :
    EndsAlike UInt16.toNat (Wire.readCount input) (readCompactLength input) := by
  rw [readCompactLength, CompactLength.gather_byte_eq _ _ rfl (by decide), Wire.readCount,
    CompactLength.decode]
  cases decoded : CompactLength.decodeFrom 0 0 input with
  | ok answer =>
    obtain ⟨total, rest⟩ := answer
    obtain ⟨_, encoded, _⟩ := CompactLength.canonical_decode decoded
    exact .of_eq (CompactLength.toNat_ofNat_of_encode encoded).symm
  | error fault =>
    cases fault with
    | insufficientData => exact .failed .short
    | tooLong => exact .failed (.count _)
    | overflow total => exact .failed (.count _)
    | redundant => exact .failed (.count _)

/-- A byte string behind its count is read alike, in one piece or byte by byte. -/
theorem endsAlike_readBytes (input : Bytes) :
    EndsAlike id (Wire.readBytes input) (Shape.compactBytes.decode input) := by
  change EndsAlike id _ ((Shape.compactSequence .byte).decode input)
  rw [Shape.decode_compactSequence]
  refine (endsAlike_count input).bind fun count rest => ?_
  have inOnePiece : Reader.many Shape.byte.decode count.toNat rest =
      Reader.block .insufficientData count.toNat rest := Reader.many_byte_eq_block _ _ _
  simp only [inOnePiece, Reader.block, Reader.bytes, Bytes.cut?]
  by_cases fits : (rest.take count.toNat).length = count.toNat
  · rw [if_pos fits, dif_pos fits]
    exact .of_eq rfl
  · rw [if_neg fits, dif_neg fits]
    exact .failed .short

/-- Lists of items that are read alike are read alike. -/
theorem endsAlike_readList [Layout α] {read : Reader MessageError α}
    (each : ∀ input, EndsAlike Layout.ofValue (read input) ((Layout.shape α).decode input))
    (input : Bytes) :
    EndsAlike (Layout.compactList α).ofValue (Wire.readList read input)
      ((Layout.compactList α).shape.decode input) := by
  change EndsAlike _ _ ((Shape.compactSequence (Layout.shape α)).decode input)
  rw [Shape.decode_compactSequence]
  refine (endsAlike_count input).bind fun count rest => ?_
  refine (EndsAlike.many each count.toNat rest).bind fun items left => ?_
  exact .of_eq rfl

end Parts

end Payload

open Payload

/-- A header is read alike. -/
theorem MessageHeader.endsAlike_read (input : Bytes) :
    EndsAlike Layout.ofValue (MessageHeader.read input)
      ((Layout.shape MessageHeader).decode input) := by
  match input with
  | [] => exact .failed .short
  | [_] => exact .failed .short
  | [_, _] => exact .failed .short
  | _ :: _ :: _ :: _ => exact .of_eq rfl

/-- An address is read alike. -/
theorem Address.endsAlike_read (input : Bytes) :
    EndsAlike Layout.ofValue (Wire.readAddress input) ((Layout.shape Address).decode input) :=
  endsAlike_block Address.mk input

/-- A hash is read alike. -/
theorem Hash.endsAlike_read (input : Bytes) :
    EndsAlike Layout.ofValue (Wire.readHash input) ((Layout.shape Hash).decode input) :=
  endsAlike_block Hash.mk input

/-- An instruction is read alike. -/
theorem CompiledInstruction.endsAlike_read (input : Bytes) :
    EndsAlike Layout.ofValue (CompiledInstruction.read input)
      ((Layout.shape CompiledInstruction).decode input) := by
  change EndsAlike _ _ ((Shape.record _).decode input)
  rw [Shape.decode_record]
  refine .cons (endsAlike_byte input) fun program rest => ?_
  refine .cons (endsAlike_readBytes rest) fun accounts rest => ?_
  refine .cons (endsAlike_readBytes rest) fun data rest => ?_
  exact .of_eq rfl

/-- A lookup is read alike. -/
theorem TableLookup.endsAlike_read (input : Bytes) :
    EndsAlike Layout.ofValue (TableLookup.read input)
      ((Layout.shape TableLookup).decode input) := by
  change EndsAlike _ _ ((Shape.record _).decode input)
  rw [Shape.decode_record]
  refine .cons (Address.endsAlike_read input) fun tableKey rest => ?_
  refine .cons (endsAlike_readBytes rest) fun writable rest => ?_
  refine .cons (endsAlike_readBytes rest) fun readonly rest => ?_
  exact .of_eq rfl

namespace LegacyMessage

/-- What both formats have in common is its header, its keys, the block hash and the
instructions. -/
theorem readCommon_eq (input : Bytes) :
    readCommon input = (do
      let (header, rest) ← MessageHeader.read input
      let (accountKeys, rest) ← Wire.readList Wire.readAddress rest
      let (recentBlockhash, rest) ← Wire.readHash rest
      let (instructions, rest) ← Wire.readList CompiledInstruction.read rest
      return ({ header, accountKeys, recentBlockhash, instructions }, rest)) := by
  simp only [readCommon, Wire.readList, bind_assoc, pure_bind]

/-- The fields that both formats begin with are read alike, and so is what follows them where that
is. -/
theorem endsAlike_fields {γ : Type} {fields : Fields} {whole : LegacyMessage × fields.Value → γ}
    {next : LegacyMessage × Bytes → Except MessageError (γ × Bytes)} {input : Bytes}
    (others : ∀ message rest, EndsAlike (fun values => whole (message, values))
      (next (message, rest)) (fields.decode rest)) :
    EndsAlike (fun values => whole (ofFieldValues values)) (readCommon input >>= next)
      ((LegacyMessage.fields fields).decode input) := by
  rw [readCommon_eq]
  simp only [bind_assoc, pure_bind]
  refine .cons (MessageHeader.endsAlike_read input) fun header rest => ?_
  refine .cons (endsAlike_readList Address.endsAlike_read rest) fun accountKeys rest => ?_
  refine .cons (Hash.endsAlike_read rest) fun recentBlockhash rest => ?_
  refine .cons (endsAlike_readList CompiledInstruction.endsAlike_read rest)
    fun instructions rest => ?_
  exact others _ rest

/-- A legacy message is read alike. -/
theorem endsAlike_readCommon (input : Bytes) :
    EndsAlike Layout.ofValue (readCommon input) ((Layout.shape LegacyMessage).decode input) := by
  change EndsAlike (fun values => Prod.fst (ofFieldValues values)) _
    ((Shape.record (LegacyMessage.fields .nil)).decode input)
  rw [Shape.decode_record, ← bind_pure (readCommon input)]
  refine endsAlike_fields fun message rest => ?_
  exact .of_eq rfl

end LegacyMessage

namespace V0Message

/-- Take what follows the mark of a version 0 message, with its lookups behind their count wherever
the input ends. -/
def readStrict : Reader MessageError V0Message := fun input => do
  let (common, rest) ← LegacyMessage.readCommon input
  let (addressTableLookups, rest) ← Wire.readList TableLookup.read rest
  return ({ toLegacyMessage := common, addressTableLookups }, rest)

/-- A version 0 message is read alike behind its mark, if its lookups are expected. -/
theorem endsAlike_readStrict (input : Bytes) :
    EndsAlike Layout.ofValue (readStrict input) ((Layout.shape V0Message).decode input) := by
  change EndsAlike _ _ ((Shape.record (LegacyMessage.fields _)).decode input)
  rw [Shape.decode_record]
  refine @LegacyMessage.endsAlike_fields V0Message
    (.cons _ (Layout.compactList TableLookup).shape .nil)
    (fun values => ⟨values.1, (Layout.compactList TableLookup).ofValue values.2.1⟩) _ input
    fun message rest => ?_
  refine .cons (endsAlike_readList TableLookup.endsAlike_read rest) fun lookups rest => ?_
  exact .of_eq rfl

/-- Behind its mark stand the common part of a version 0 message and its lookups. -/
theorem read_mark_eq (input : Bytes) :
    V0Message.read (versionMark :: input) = (do
      let (common, rest) ← LegacyMessage.readCommon input
      let (addressTableLookups, rest) ← TableLookup.readAll rest
      return ({ toLegacyMessage := common, addressTableLookups }, rest)) := rfl

/-- Behind its mark a version 0 message is read with its lookups expected, unless the input ends
after the instructions. -/
theorem read_mark_eq_readStrict {input : Bytes}
    (goesOn : ¬EndsAfterInstructions (versionMark :: input)) :
    V0Message.read (versionMark :: input) = readStrict input := by
  rw [read_mark_eq, readStrict]
  cases commonTaken : LegacyMessage.readCommon input with
  | error fault => rfl
  | ok taken =>
    obtain ⟨common, rest⟩ := taken
    cases rest with
    | nil => exact absurd ⟨input, common, rfl, commonTaken⟩ goesOn
    | cons first others => rfl

/-- Where the input ends after the instructions, the expected lookups are missing. -/
theorem readStrict_of_endsAfterInstructions {input : Bytes}
    (ends : EndsAfterInstructions (versionMark :: input)) :
    readStrict input = .error .bufferTooSmall := by
  obtain ⟨rest, common, spelled, commonTaken⟩ := ends
  obtain ⟨_, rfl⟩ := List.cons.inj spelled
  rw [readStrict, commonTaken]
  rfl

end V0Message

end Transact
