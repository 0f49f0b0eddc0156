import Transact.Proofs.EncodedPayloads

/-!
# Accepted payloads are encodings

A shape takes a value only from the bytes that are written for it: marks and truth values have one
spelling, numbers have a fixed width, letters are the bytes of one text, and a compact count is
accepted only at its shortest. As for reading back, this is an induction over shapes, and where a
value is not faithful nothing is said of the bytes but that the reading did not look behind itself.

The main statement, `Payload.exact_form`, joins the two directions: a value is read off the front of
an input exactly when the front is what is written for it.
-/

namespace Transact.Payload

open Reader (Canonical Reads)

/-- What a value is written as, if it is faithful. -/
def Shape.WrittenAs (shape : Shape) (value : shape.Value) (bytes : Bytes) : Prop :=
  shape.Faithful value → shape.encode value = .ok bytes

/-- What components are written as, if they are faithful. -/
def Fields.WrittenAs (fields : Fields) (values : fields.Value) (bytes : Bytes) : Prop :=
  fields.Faithful values → fields.encode values = .ok bytes

/-- A number is taken from its bytes, and its width can hold it. -/
theorem canonical_number (width : Nat) :
    Canonical (readNumber width) fun number bytes =>
      number < Nat.pow 256 width ∧ bytes = Bytes.ofNat width number := by
  apply Canonical.mono (Canonical.map Bytes.toNat
    (Reader.canonical_bytes Error.insufficientData width))
  rintro number bytes ⟨value, ⟨rfl, rfl⟩, rfl⟩
  exact ⟨Bytes.toNat_lt value, (Bytes.ofNat_toNat value).symm⟩

/-- A count is taken from what is written for it. -/
theorem canonical_count :
    Canonical (readNumber 8) fun count bytes => countBytes count = .ok bytes := by
  apply Canonical.mono (canonical_number 8)
  intro count bytes
  exact (countBytes_eq_ok_iff count bytes).mpr

/-- A byte string is taken from what is written for it. -/
theorem canonical_blob : Canonical readBlob fun value bytes => blobBytes value = .ok bytes := by
  apply Canonical.mono (Canonical.bind _ canonical_count
    (Reader.canonical_bytes Error.insufficientData))
  rintro value bytes ⟨_, count, _, counted, ⟨rfl, rfl⟩, rfl⟩
  rw [blobBytes, counted]
  rfl

/-- A compact length is taken from what is written for it. -/
theorem canonical_compactLength :
    Canonical readCompactLength fun number bytes => compactCountBytes number.toNat = .ok bytes := by
  intro input number rest taken
  rw [readCompactLength, CompactLength.gather_byte_eq _ _ rfl (by decide)] at taken
  split at taken
  · rename_i total left decoded
    cases taken
    obtain ⟨bytes, encoded, spelled⟩ := CompactLength.canonical_decode decoded
    have total_eq := CompactLength.toNat_ofNat_of_encode encoded
    refine ⟨bytes, ?_, spelled⟩
    dsimp only
    rw [total_eq]
    exact (Outcome.mapError_eq_ok_iff _ _ _).mpr encoded
  · cases taken
  · cases taken

namespace Shape

/-- A truth value is taken from the byte for it. -/
theorem canonical_boolean : Canonical Shape.boolean.decode Shape.boolean.WrittenAs := by
  intro input flag rest taken
  obtain ⟨⟨byte, left⟩, first, continued⟩ := (Outcome.bind_eq_ok_iff _ _ _).mp taken
  obtain ⟨bytes, rfl, rfl⟩ := Reader.canonical_byte _ first
  dsimp only at continued
  split at continued
  · rename_i zero
    cases continued
    exact ⟨[byte], fun _ => zero ▸ rfl, rfl⟩
  · split at continued
    · rename_i one
      cases continued
      exact ⟨[byte], fun _ => one ▸ rfl, rfl⟩
    · cases continued

/-- An integer is taken from its bytes. -/
theorem canonical_integer (signed : Bool) (width : Nat) :
    Canonical (Shape.integer signed width).decode (Shape.integer signed width).WrittenAs := by
  apply Canonical.mono (Canonical.map (BitVec.ofNat (8 * width)) (canonical_number width))
  rintro _ bytes ⟨number, ⟨fits, rfl⟩, rfl⟩ -
  have fitsBits : number < 2 ^ (8 * width) := by
    rw [Nat.pow_mul]
    exact fits
  have number_eq : (BitVec.ofNat (8 * width) number).toNat = number := by
    rw [BitVec.toNat_ofNat, Nat.mod_eq_of_lt fitsBits]
  change Except.ok (Bytes.ofNat width (BitVec.ofNat (8 * width) number).toNat) = _
  rw [number_eq]

/-- Letters are taken as the text that they spell, which spells them. -/
theorem canonical_textOfLetters (letters : Bytes) :
    Canonical (textOfLetters letters) fun text bytes =>
      text.toUTF8.data.toList = letters ∧ [] = bytes := by
  intro input text rest taken
  unfold textOfLetters String.fromUTF8? at taken
  split at taken
  · rename_i spelled found
    cases taken
    split at found
    · cases found
      exact ⟨[], ⟨rfl, rfl⟩, rfl⟩
    · cases found
  · cases taken

/-- A text is taken from the byte string of its letters. -/
theorem canonical_text : Canonical Shape.text.decode Shape.text.WrittenAs := by
  apply Canonical.mono (Canonical.bind textOfLetters canonical_blob canonical_textOfLetters)
  rintro text bytes ⟨_, front, _, written, ⟨rfl, rfl⟩, rfl⟩ -
  rw [List.append_nil]
  exact written

variable {inner : Shape}

/-- A list is taken from what is written for its items, one behind the other. -/
theorem canonical_listOf (each : Canonical inner.decode inner.WrittenAs) (count : Nat) :
    Canonical (Reader.listOf inner.decode count) fun items bytes => items.length = count ∧
      ((∀ item ∈ items, inner.Faithful item) →
        ∃ parts, items.mapM inner.encode = .ok parts ∧ parts.flatten = bytes) := by
  apply Canonical.mono (Canonical.map FixedList.toList (Reader.canonical_many each count))
  rintro _ _ ⟨list, ⟨parts, written, rfl⟩, rfl⟩
  refine ⟨list.length_toList, fun faithful => ⟨parts, ?_, rfl⟩⟩
  rw [Outcome.mapM_eq_ok_iff]
  generalize list.toList = items at written faithful
  induction written with
  | nil => exact .nil
  | cons first _ inductionHypothesis =>
    rw [List.forall_mem_cons] at faithful
    exact .cons (first faithful.1) (inductionHypothesis faithful.2)

/-- A value that may be missing is taken from its mark and, if it is there, from what is written for
it. -/
theorem canonical_optional (each : Canonical inner.decode inner.WrittenAs) :
    Canonical (Shape.optional inner).decode (Shape.optional inner).WrittenAs := by
  intro input item rest taken
  obtain ⟨⟨mark, left⟩, first, continued⟩ := (Outcome.bind_eq_ok_iff _ _ _).mp taken
  obtain ⟨_, rfl, rfl⟩ := Reader.canonical_byte _ first
  dsimp only at continued
  split at continued
  · rename_i zero
    cases continued
    exact ⟨[mark], fun _ => zero ▸ rfl, rfl⟩
  · split at continued
    · rename_i one
      obtain ⟨bytes, ⟨value, written, rfl⟩, rfl⟩ := Canonical.map some each continued
      refine ⟨mark :: bytes, ?_, rfl⟩
      intro faithful
      have valueWritten := written (faithful value rfl)
      change (inner.encode value >>= fun bytes => pure (1 :: bytes)) = _
      rw [valueWritten, one]
      rfl
    · cases continued

/-- A list is taken from its count and what is written for its items. -/
theorem canonical_sequence (each : Canonical inner.decode inner.WrittenAs) :
    Canonical (Shape.sequence inner).decode (Shape.sequence inner).WrittenAs := by
  apply Canonical.mono
    (Canonical.bind (Reader.listOf inner.decode) canonical_count (canonical_listOf each))
  rintro items _ ⟨_, count, _, counted, ⟨rfl, itemsWritten⟩, rfl⟩ faithful
  obtain ⟨parts, written, rfl⟩ := itemsWritten faithful
  change (do
    let count ← countBytes items.length
    let bytes ← items.mapM inner.encode
    return count ++ bytes.flatten) = _
  rw [counted, written]
  rfl

/-- A list is taken from its compact count and what is written for its items. -/
theorem canonical_compactSequence (each : Canonical inner.decode inner.WrittenAs) :
    Canonical (Shape.compactSequence inner).decode (Shape.compactSequence inner).WrittenAs := by
  apply Canonical.mono (Canonical.bind (fun number => Reader.listOf inner.decode number.toNat)
    canonical_compactLength fun number => canonical_listOf each number.toNat)
  rintro items _ ⟨number, count, _, counted, ⟨length_eq, itemsWritten⟩, rfl⟩ faithful
  obtain ⟨parts, written, rfl⟩ := itemsWritten faithful
  rw [encode_compactSequence, length_eq, counted, written]
  rfl

/-- A list that would not have been counted is taken from some front of the input. -/
theorem canonical_unsizedSequence (each : Canonical inner.decode inner.WrittenAs) :
    Canonical (Shape.unsizedSequence inner).decode (Shape.unsizedSequence inner).WrittenAs := by
  apply Canonical.mono
    (Canonical.bind (Reader.listOf inner.decode) canonical_count (canonical_listOf each))
  intro items bytes _ faithful
  exact faithful.elim

/-- An array is taken from what is written for its items. -/
theorem canonical_array (each : Canonical inner.decode inner.WrittenAs) (count : Nat) :
    Canonical (Shape.array count inner).decode (Shape.array count inner).WrittenAs := by
  intro input items rest taken
  have listTaken : Reader.listOf inner.decode count input = .ok (items.toList, rest) := by
    change (Reader.many inner.decode count input >>= _) = _
    rw [show Reader.many inner.decode count input = .ok (items, rest) from taken]
    rfl
  obtain ⟨bytes, ⟨_, itemsWritten⟩, spelled⟩ := canonical_listOf each count listTaken
  refine ⟨bytes, ?_, spelled⟩
  intro faithful
  obtain ⟨parts, written, rfl⟩ := itemsWritten faithful
  change (items.toList.mapM inner.encode >>= fun bytes => pure bytes.flatten) = _
  rw [written]
  rfl

end Shape

mutual

/-- A value is taken only from what is written for it, if it is faithful. -/
theorem Shape.canonical_decode : (shape : Shape) → Canonical shape.decode shape.WrittenAs
  | .byte => by
    apply Canonical.mono (Reader.canonical_byte Error.insufficientData)
    rintro byte _ rfl -
    rfl
  | .integer signed width => Shape.canonical_integer signed width
  | .boolean => Shape.canonical_boolean
  | .text => Shape.canonical_text
  | .blob => Canonical.mono canonical_blob fun _ _ written _ => written
  | .unit => by
    intro taken
    cases taken
    exact ⟨[], fun _ => rfl, rfl⟩
  | .compactLength => Canonical.mono canonical_compactLength fun _ _ written _ => written
  | .optional inner => Shape.canonical_optional inner.canonical_decode
  | .sequence inner => Shape.canonical_sequence inner.canonical_decode
  | .unsizedSequence inner => Shape.canonical_unsizedSequence inner.canonical_decode
  | .compactSequence inner => Shape.canonical_compactSequence inner.canonical_decode
  | .array count inner => Shape.canonical_array inner.canonical_decode count
  | .tuple components => components.canonical_decode
  | .record fields => fields.canonical_decode
  | .readable => by
    intro taken
    cases taken
    exact ⟨[], False.elim, rfl⟩
  | .refusal => fun taken => nomatch taken
  | .unsupported _ => fun taken => nomatch taken

/-- Components are taken only from what is written for them, if they are faithful. -/
theorem Fields.canonical_decode : (fields : Fields) → Canonical fields.decode fields.WrittenAs
  | .nil => by
    intro taken
    cases taken
    exact ⟨[], fun _ => rfl, rfl⟩
  | .cons name shape rest => by
    apply Canonical.mono (Canonical.bind (fun value input => do
      let (values, input) ← rest.decode input
      return ((value, values), input)) shape.canonical_decode
      fun value => Canonical.map (fun values => (value, values)) rest.canonical_decode)
    rintro _ _ ⟨value, front, behind, first, ⟨values, others, rfl⟩, rfl⟩ faithful
    rw [Fields.encode_cons, first faithful.1, others faithful.2]
    rfl

end

section Layout

variable {α : Type} [Layout α] {value : α} {bytes : Bytes}

/-- A value is read from the bytes that its arrangement is read from. -/
theorem reads_of_toBytes (faithful : (Layout.shape α).Faithful (Layout.toValue value))
    (written : toBytes value = .ok bytes) : Reads (Payload.read : Reader Error α) bytes value := by
  intro tail
  rw [Payload.read, (Layout.shape α).reads_of_encode faithful written tail]
  exact congrArg (fun value => Except.ok (value, tail)) (Layout.ofValue_toValue value)

/-- A value is taken only from what is written for it, if its arrangement is faithful. -/
theorem canonical_read :
    Canonical (Payload.read : Reader Error α) fun value bytes =>
      (Layout.shape α).Faithful (Layout.toValue value) → toBytes value = .ok bytes := by
  intro input value rest taken
  obtain ⟨⟨arranged, left⟩, decoded, returned⟩ := (Outcome.map_eq_ok_iff _ _ _).mp taken
  cases returned
  obtain ⟨bytes, written, spelled⟩ := (Layout.shape α).canonical_decode decoded
  refine ⟨bytes, ?_, spelled⟩
  intro faithful
  rw [Layout.toValue_ofValue] at faithful
  rw [toBytes, Layout.toValue_ofValue]
  exact written faithful

/-- A faithful value is read off the front of an input exactly when the front is what is written for
it. -/
theorem ofBytesPartial_eq_ok_iff (faithful : (Layout.shape α).Faithful (Layout.toValue value))
    (input : Bytes) (count : Nat) :
    ofBytesPartial input = .ok (value, count) ↔
      count ≤ input.length ∧ toBytes value = .ok (input.take count) := by
  constructor
  · intro taken
    obtain ⟨bounded, taken⟩ := Reader.read_of_counted
      (fun rest taken => (canonical_read taken).imp fun _ => And.right) taken
    obtain ⟨bytes, written, spelled⟩ := canonical_read taken
    have front : input.take count ++ input.drop count = bytes ++ input.drop count := by
      rw [List.take_append_drop]
      exact spelled
    rw [List.append_cancel_right front]
    exact ⟨bounded, written faithful⟩
  · rintro ⟨bounded, written⟩
    have counted := (reads_of_toBytes faithful written).counted_eq (input.drop count)
    rw [List.take_append_drop, List.length_take_of_le bounded] at counted
    exact counted

/-- A faithful value spans an input exactly when the input is what is written for it. -/
theorem ofBytes_eq_ok_iff (faithful : (Layout.shape α).Faithful (Layout.toValue value))
    (input : Bytes) : ofBytes input = .ok value ↔ toBytes value = .ok input := by
  constructor
  · intro taken
    obtain ⟨bytes, written, rfl⟩ := canonical_read ((Reader.whole_eq_ok_iff _ _ _ _).mp taken)
    rw [List.append_nil]
    exact written faithful
  · intro written
    exact (reads_of_toBytes faithful written).whole_eq _

/-- The payload form is exact, whatever the layout of a type. A faithful value is read off the front
of an input exactly when the front is what is written for it. So what was written is read back
whatever follows, a value spans only the one input that is written for it, and what follows an input
that a value should span is counted in the fault. -/
theorem exact_form (value : α) (faithful : (Layout.shape α).Faithful (Layout.toValue value)) :
    (∀ (input : Bytes) (count : Nat), ofBytesPartial input = .ok (value, count) ↔
      count ≤ input.length ∧ toBytes value = .ok (input.take count)) ∧
    (∀ bytes tail : Bytes, toBytes value = .ok bytes →
      ofBytesPartial (bytes ++ tail) = .ok (value, bytes.length) ∧
      (tail ≠ [] → (ofBytes (bytes ++ tail) : Except Error α) =
        .error (.trailingBytes tail.length))) ∧
    ∀ input : Bytes, ofBytes input = .ok value ↔ toBytes value = .ok input := by
  refine ⟨ofBytesPartial_eq_ok_iff faithful, ?_, ofBytes_eq_ok_iff faithful⟩
  intro bytes tail written
  have reads := reads_of_toBytes faithful written
  exact ⟨reads.counted_eq tail, reads.whole_append_eq _⟩

end Layout

/-- A record that nests lists, and whose missing parts are of shapes that cannot be written. -/
def sampleShape : Shape := .record
  (.cons "label" (.optional .text)
    (.cons "rate" (.optional (.unsupported .float64))
      (.cons "history" (.optional (.unsizedSequence .byte))
        (.cons "steps" (.compactSequence (.tuple
          (.cons "0" .boolean (.cons "1" (.array 2 (.integer true 2)) .nil))))
          (.cons "sizes" (.sequence .compactLength) .nil)))))

/-- The values of the sample's shape. -/
def SampleValue : Type := sampleShape.Value

instance : Layout SampleValue where
  shape := sampleShape
  toValue value := value
  ofValue value := value
  ofValue_toValue _ := rfl
  toValue_ofValue _ := rfl

/-- A value of the sample's shape that reaches none of the shapes that cannot be written. -/
def sampleValue : SampleValue :=
  (some "é", none, none, [(true, ⟨[-2, 300], rfl⟩, ())], [5, 300], ())

/-- The sample's label is a text, its missing parts are faithful whatever their shapes, and its
lists are of shapes that are read as they are written. -/
theorem faithful_sampleValue : (Layout.shape SampleValue).Faithful (Layout.toValue sampleValue) :=
  ⟨Shape.faithful_of_isTwoWay (.optional .text) rfl _, nofun, nofun,
    Fields.faithful_of_isTwoWay (.cons _ _ (.cons _ _ .nil)) rfl _⟩

/-- What is written for the sample. -/
def sampleValueSpelling : Bytes :=
  [1, 2, 0, 0, 0, 0, 0, 0, 0, 0xc3, 0xa9, 0, 0, 1, 1, 0xfe, 0xff, 0x2c, 0x01,
    2, 0, 0, 0, 0, 0, 0, 0, 5, 0xac, 0x02]

/-- The sample is faithful, is written as its spelling, and is read from it with or without a byte
behind it, which is one too many where the sample should span the input. -/
theorem exact_form_sample :
    (Layout.shape SampleValue).Faithful (Layout.toValue sampleValue) ∧
    toBytes sampleValue = .ok sampleValueSpelling ∧
    ofBytesPartial (sampleValueSpelling ++ [9]) = .ok (sampleValue, 30) ∧
    (ofBytes (sampleValueSpelling ++ [9]) : Except Error SampleValue) =
      .error (.trailingBytes 1) ∧
    ofBytes sampleValueSpelling = .ok sampleValue := by
  have written : toBytes sampleValue = .ok sampleValueSpelling := rfl
  obtain ⟨_, behind, spans⟩ := exact_form sampleValue faithful_sampleValue
  obtain ⟨offTheFront, trailing⟩ := behind _ [9] written
  exact ⟨faithful_sampleValue, written, offTheFront, trailing (by decide), (spans _).mpr written⟩

end Transact.Payload
