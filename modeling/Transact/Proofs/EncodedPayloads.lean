import Transact.Payload.Layout
import Transact.Proofs.PayloadReading
import Transact.Proofs.PayloadWriting

/-!
# Encoded payloads are read back

A payload is written by its shape and read by its shape, and each shape reads what it wrote whatever
follows. Shapes nest, so this is an induction over them: a shape with parts reads its parts in the
order in which they were written, and every part ends by itself.

Two shapes are read otherwise than they are written. A form answers the question whether it is meant
for people without a byte to read the answer from, though the answer can be written; and a sequence
that its writer would not have counted is refused on writing, though it can be read. A value without
such parts is faithful (`Payload.Shape.Faithful`). Shapes outside the closed set may occur in it, as
they can be neither written nor read.

The main statement is `Payload.Shape.reads_of_encode`.
-/

namespace Transact

/-- Take so many values as a plain list. -/
def Reader.listOf {ε α : Type} (read : Reader ε α) (count : Nat) : Reader ε (List α) :=
  fun input => do
    let (items, rest) ← Reader.many read count input
    return (items.toList, rest)

namespace Payload

open Reader (Reads)

mutual

/-- Every part of a value is of a shape that is read as it is written. -/
def Shape.Faithful : (shape : Shape) → shape.Value → Prop
  | .byte, _ => True
  | .integer _ _, _ => True
  | .boolean, _ => True
  | .text, _ => True
  | .blob, _ => True
  | .unit, _ => True
  | .compactLength, _ => True
  | .optional inner, (item : Option inner.Value) => ∀ value ∈ item, inner.Faithful value
  | .sequence inner, (items : List inner.Value) => ∀ item ∈ items, inner.Faithful item
  | .unsizedSequence _, _ => False
  | .compactSequence inner, (items : List inner.Value) => ∀ item ∈ items, inner.Faithful item
  | .array _ inner, (items : FixedList _ inner.Value) =>
    ∀ item ∈ items.toList, inner.Faithful item
  | .tuple components, value => components.Faithful value
  | .record fields, value => fields.Faithful value
  | .readable, _ => False
  | .refusal, _ => True
  | .unsupported _, _ => True

/-- Every component is of a shape that is read as it is written. -/
def Fields.Faithful : (fields : Fields) → fields.Value → Prop
  | .nil, _ => True
  | .cons _ shape rest, (value, values) => shape.Faithful value ∧ rest.Faithful values

end

mutual

/-- Whether every part of a shape is read as it is written. -/
def Shape.isTwoWay : Shape → Bool
  | .byte => true
  | .integer _ _ => true
  | .boolean => true
  | .text => true
  | .blob => true
  | .unit => true
  | .compactLength => true
  | .optional inner => inner.isTwoWay
  | .sequence inner => inner.isTwoWay
  | .unsizedSequence _ => false
  | .compactSequence inner => inner.isTwoWay
  | .array _ inner => inner.isTwoWay
  | .tuple components => components.isTwoWay
  | .record fields => fields.isTwoWay
  | .readable => false
  | .refusal => true
  | .unsupported _ => true

/-- Whether every component is read as it is written. -/
def Fields.isTwoWay : Fields → Bool
  | .nil => true
  | .cons _ shape rest => shape.isTwoWay && rest.isTwoWay

end

mutual

/-- All values of a shape that is read as it is written are faithful. -/
theorem Shape.faithful_of_isTwoWay : (shape : Shape) → shape.isTwoWay = true →
    (value : shape.Value) → shape.Faithful value
  | .byte, _, _ => trivial
  | .integer _ _, _, _ => trivial
  | .boolean, _, _ => trivial
  | .text, _, _ => trivial
  | .blob, _, _ => trivial
  | .unit, _, _ => trivial
  | .compactLength, _, _ => trivial
  | .optional inner, twoWay, _ => fun value _ => inner.faithful_of_isTwoWay twoWay value
  | .sequence inner, twoWay, _ => fun item _ => inner.faithful_of_isTwoWay twoWay item
  | .compactSequence inner, twoWay, _ => fun item _ => inner.faithful_of_isTwoWay twoWay item
  | .array _ inner, twoWay, _ => fun item _ => inner.faithful_of_isTwoWay twoWay item
  | .tuple components, twoWay, values => components.faithful_of_isTwoWay twoWay values
  | .record fields, twoWay, values => fields.faithful_of_isTwoWay twoWay values
  | .refusal, _, _ => trivial
  | .unsupported _, _, _ => trivial

/-- All values of components that are read as they are written are faithful. -/
theorem Fields.faithful_of_isTwoWay : (fields : Fields) → fields.isTwoWay = true →
    (values : fields.Value) → fields.Faithful values
  | .nil, _, _ => trivial
  | .cons _ shape rest, twoWay, (value, values) => by
    have parts := Bool.and_eq_true_iff.mp twoWay
    exact ⟨shape.faithful_of_isTwoWay parts.1 value, rest.faithful_of_isTwoWay parts.2 values⟩

end

/-- A number that its width can hold is read from its bytes. -/
theorem reads_number {width number : Nat} (fits : number < Nat.pow 256 width) :
    Reads (readNumber width) (Bytes.ofNat width number) number := by
  have taken := (Reader.reads_bytes Error.insufficientData (Bytes.ofNat width number)).map
    Bytes.toNat
  rw [Bytes.length_ofNat, Bytes.toNat_ofNat, Nat.mod_eq_of_lt fits] at taken
  exact taken

/-- A count is written exactly when eight bytes can hold it. -/
theorem countBytes_eq_ok_iff (count : Nat) (bytes : Bytes) :
    countBytes count = .ok bytes ↔ count < Nat.pow 256 8 ∧ bytes = Bytes.ofNat 8 count := by
  unfold countBytes countLimit
  by_cases fits : count < Nat.pow 256 8
  · simp only [fits, if_true, true_and, Except.ok.injEq, eq_comm]
  · simp only [fits, if_false, false_and, reduceCtorEq]

/-- A count is read from what was written for it. -/
theorem reads_of_countBytes {count : Nat} {bytes : Bytes} (written : countBytes count = .ok bytes) :
    Reads (readNumber 8) bytes count := by
  obtain ⟨fits, rfl⟩ := (countBytes_eq_ok_iff count bytes).mp written
  exact reads_number fits

/-- A byte string is read from what was written for it. -/
theorem reads_of_blobBytes {value bytes : Bytes} (written : blobBytes value = .ok bytes) :
    Reads readBlob bytes value := by
  obtain ⟨count, counted, returned⟩ := (Outcome.bind_eq_ok_iff _ _ _).mp written
  cases returned
  exact (reads_of_countBytes counted).bind _ (Reader.reads_bytes Error.insufficientData value)

/-- The count of a list is read from what was written for it, as a number of 16 bits. -/
theorem reads_of_compactCountBytes {count : Nat} {bytes : Bytes}
    (written : compactCountBytes count = .ok bytes) :
    ∃ number : UInt16, number.toNat = count ∧ Reads readCompactLength bytes number := by
  have encoded := (Outcome.mapError_eq_ok_iff _ _ _).mp written
  refine ⟨UInt16.ofNat count, CompactLength.toNat_ofNat_of_encode encoded, ?_⟩
  intro tail
  have decoded := CompactLength.reads_of_encode encoded tail
  rw [CompactLength.decode] at decoded
  rw [readCompactLength, CompactLength.gather_byte_eq _ _ rfl (by decide), decoded]

/-- Take the text that certain letters spell, without taking a byte. -/
def textOfLetters (letters : Bytes) : Reader Error String := fun rest =>
  match String.fromUTF8? ⟨letters.toArray⟩ with
  | some text => .ok (text, rest)
  | none => .error .invalidUtf8

namespace Shape

/-- A truth value is read from its byte. -/
theorem reads_boolean (flag : Bool) : Reads Shape.boolean.decode [flag.toUInt8] flag := by
  cases flag with
  | false => exact fun _ => rfl
  | true => exact fun _ => rfl

/-- An integer is read from its bytes. -/
theorem reads_integer (signed : Bool) {width : Nat} (number : BitVec (8 * width)) :
    Reads (Shape.integer signed width).decode (Bytes.ofNat width number.toNat) number := by
  have fits : number.toNat < Nat.pow 256 width := by
    have bounded := number.isLt
    rwa [Nat.pow_mul] at bounded
  have taken := (reads_number fits).map (BitVec.ofNat (8 * width))
  rw [BitVec.ofNat_toNat, BitVec.setWidth_eq] at taken
  exact taken

/-- A text is read from the byte string of its letters. -/
theorem reads_of_text {text : String} {bytes : Bytes}
    (written : blobBytes text.toUTF8.data.toList = .ok bytes) :
    Reads Shape.text.decode bytes text := by
  have spelled : String.fromUTF8? ⟨text.toUTF8.data.toList.toArray⟩ = some text :=
    dif_pos text.isValidUTF8
  have letters : Reads (textOfLetters text.toUTF8.data.toList) [] text := by
    intro tail
    rw [textOfLetters, spelled]
    rfl
  have taken := (reads_of_blobBytes written).bind textOfLetters letters
  rw [List.append_nil] at taken
  exact taken

variable {inner : Shape}

/-- Items that are read from what was written for them are read one after the other. -/
theorem reads_items
    (each : ∀ {value bytes}, inner.Faithful value → inner.encode value = .ok bytes →
      Reads inner.decode bytes value)
    {items : List inner.Value} {parts : List Bytes} (faithful : ∀ item ∈ items, inner.Faithful item)
    (written : items.mapM inner.encode = .ok parts) :
    Reads (Reader.many inner.decode items.length) parts.flatten ⟨items, rfl⟩ := by
  apply Reader.reads_many
  have eachWritten := (Outcome.mapM_eq_ok_iff _ _ _).mp written
  clear written
  induction eachWritten with
  | nil => exact .nil
  | cons first _ inductionHypothesis =>
    rw [List.forall_mem_cons] at faithful
    exact .cons (each faithful.1 first) (inductionHypothesis faithful.2)

/-- Such items are read as the list of them. -/
theorem reads_listOf
    (each : ∀ {value bytes}, inner.Faithful value → inner.encode value = .ok bytes →
      Reads inner.decode bytes value)
    {items : List inner.Value} {parts : List Bytes} (faithful : ∀ item ∈ items, inner.Faithful item)
    (written : items.mapM inner.encode = .ok parts) :
    Reads (Reader.listOf inner.decode items.length) parts.flatten items :=
  (reads_items each faithful written).map FixedList.toList

/-- A value that may be missing is read from its mark and, if it is there, from what was written for
it. -/
theorem reads_optional
    (each : ∀ {value bytes}, inner.Faithful value → inner.encode value = .ok bytes →
      Reads inner.decode bytes value)
    {item : Option inner.Value} {bytes : Bytes} (faithful : (Shape.optional inner).Faithful item)
    (written : (Shape.optional inner).encode item = .ok bytes) :
    Reads (Shape.optional inner).decode bytes item := by
  cases item with
  | none =>
    cases written
    exact fun _ => rfl
  | some value =>
    obtain ⟨part, partWritten, returned⟩ := (Outcome.bind_eq_ok_iff _ _ _).mp written
    cases returned
    have taken := (each (faithful value rfl) partWritten).map some
    exact fun tail => taken tail

/-- The items of a list are read behind their count. -/
theorem reads_sequence
    (each : ∀ {value bytes}, inner.Faithful value → inner.encode value = .ok bytes →
      Reads inner.decode bytes value)
    {items : List inner.Value} {bytes : Bytes} (faithful : ∀ item ∈ items, inner.Faithful item)
    (written : (Shape.sequence inner).encode items = .ok bytes) :
    Reads (Shape.sequence inner).decode bytes items := by
  obtain ⟨count, counted, continued⟩ := (Outcome.bind_eq_ok_iff _ _ _).mp written
  obtain ⟨parts, itemsWritten, returned⟩ := (Outcome.bind_eq_ok_iff _ _ _).mp continued
  cases returned
  exact (reads_of_countBytes counted).bind (Reader.listOf inner.decode)
    (reads_listOf each faithful itemsWritten)

/-- The items of a list are read behind their compact count. -/
theorem reads_compactSequence
    (each : ∀ {value bytes}, inner.Faithful value → inner.encode value = .ok bytes →
      Reads inner.decode bytes value)
    {items : List inner.Value} {bytes : Bytes} (faithful : ∀ item ∈ items, inner.Faithful item)
    (written : (Shape.compactSequence inner).encode items = .ok bytes) :
    Reads (Shape.compactSequence inner).decode bytes items := by
  rw [encode_compactSequence] at written
  obtain ⟨count, counted, continued⟩ := (Outcome.bind_eq_ok_iff _ _ _).mp written
  obtain ⟨parts, itemsWritten, returned⟩ := (Outcome.bind_eq_ok_iff _ _ _).mp continued
  cases returned
  obtain ⟨number, number_eq, numberRead⟩ := reads_of_compactCountBytes counted
  have listed := reads_listOf each faithful itemsWritten
  rw [← number_eq] at listed
  exact numberRead.bind (fun number => Reader.listOf inner.decode number.toNat) listed

/-- The items of an array are read from what was written for them. -/
theorem reads_array
    (each : ∀ {value bytes}, inner.Faithful value → inner.encode value = .ok bytes →
      Reads inner.decode bytes value)
    {count : Nat} {items : FixedList count inner.Value} {bytes : Bytes}
    (faithful : ∀ item ∈ items.toList, inner.Faithful item)
    (written : (Shape.array count inner).encode items = .ok bytes) :
    Reads (Shape.array count inner).decode bytes items := by
  obtain ⟨parts, itemsWritten, returned⟩ := (Outcome.bind_eq_ok_iff _ _ _).mp written
  cases returned
  obtain ⟨items, rfl⟩ := items
  exact reads_items each faithful itemsWritten

end Shape

mutual

/-- A faithful value is read from what was written for it, whatever follows. -/
theorem Shape.reads_of_encode : (shape : Shape) → {value : shape.Value} → {bytes : Bytes} →
    shape.Faithful value → shape.encode value = .ok bytes → Reads shape.decode bytes value
  | .byte, _, _, _, written => by
    cases written
    exact fun _ => rfl
  | .integer signed _, number, _, _, written => by
    cases written
    exact Shape.reads_integer signed number
  | .boolean, flag, _, _, written => by
    cases written
    exact Shape.reads_boolean flag
  | .text, _, _, _, written => Shape.reads_of_text written
  | .blob, _, _, _, written => reads_of_blobBytes written
  | .unit, _, _, _, written => by
    cases written
    exact fun _ => rfl
  | .compactLength, _, _, _, written => by
    obtain ⟨number, number_eq, numberRead⟩ := reads_of_compactCountBytes written
    exact UInt16.toNat_inj.mp number_eq ▸ numberRead
  | .optional inner, _, _, faithful, written =>
    Shape.reads_optional inner.reads_of_encode faithful written
  | .sequence inner, _, _, faithful, written =>
    Shape.reads_sequence inner.reads_of_encode faithful written
  | .unsizedSequence _, _, _, faithful, _ => faithful.elim
  | .compactSequence inner, _, _, faithful, written =>
    Shape.reads_compactSequence inner.reads_of_encode faithful written
  | .array _ inner, _, _, faithful, written =>
    Shape.reads_array inner.reads_of_encode faithful written
  | .tuple components, _, _, faithful, written => components.reads_of_encode faithful written
  | .record fields, _, _, faithful, written => fields.reads_of_encode faithful written
  | .readable, _, _, faithful, _ => faithful.elim
  | .refusal, _, _, _, written => nomatch written
  | .unsupported _, _, _, _, written => nomatch written

/-- Faithful components are read from what was written for them, whatever follows. -/
theorem Fields.reads_of_encode : (fields : Fields) → {values : fields.Value} → {bytes : Bytes} →
    fields.Faithful values → fields.encode values = .ok bytes → Reads fields.decode bytes values
  | .nil, _, _, _, written => by
    cases written
    exact fun _ => rfl
  | .cons name shape rest, (value, values), _, faithful, written => by
    rw [Fields.encode_cons] at written
    obtain ⟨front, first, continued⟩ := (Outcome.bind_eq_ok_iff _ _ _).mp written
    obtain ⟨behind, others, returned⟩ := (Outcome.bind_eq_ok_iff _ _ _).mp continued
    cases returned
    have following := (rest.reads_of_encode faithful.2 others).map fun values => (value, values)
    exact (shape.reads_of_encode faithful.1 first).bind (fun value input => do
      let (values, input) ← rest.decode input
      return ((value, values), input)) following

end

end Payload

end Transact
