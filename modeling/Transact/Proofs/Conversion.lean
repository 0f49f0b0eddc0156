import Transact.Proofs.Numerals
import Transact.Proofs.Outcomes

/-!
# What a converter to base 58 is for

What letters stand for is a relation between letters and bytes (`Denotes`), said without writing or
reading: they are the letters of digits that spell the bytes. A byte string has one such list of
letters (`denotes_iff`).

Of a converter nothing is taken for granted but that it follows this relation (`Converts`). When it
writes it is held to account only for letters that fit into its buffer, so that they do is left for
its users to show. The converter that the library is run with follows the relation (`converts`).
-/

namespace Transact.Base58

/-- Letters denote a byte string: they are the letters of digits that spell it. -/
def Denotes (letters bytes : Bytes) : Prop :=
  ∃ spelled, Spells spelled bytes ∧ letters = spelled.map letter

/-- One list of letters denotes a byte string. -/
theorem denotes_iff (letters bytes : Bytes) :
    Denotes letters bytes ↔ letters = (spelling bytes).map letter := by
  simp only [Denotes, spells_iff, exists_eq_left]

/-- The converter writes the letters that denote a byte string wherever they fit, and reads exactly
the letters that denote one of the wanted size. -/
structure Converts (size limit : Nat) [Converter size limit] : Prop where
  /-- Letters that fit are counted and stand at the front of the buffer. -/
  encode_eq : ∀ (bytes : FixedList size UInt8) (buffer : FixedList limit UInt8) (letters : Bytes),
    Denotes letters bytes.toList → letters.length ≤ limit →
      (Converter.encode bytes buffer).1.toNat = letters.length ∧
        (Converter.encode bytes buffer).2.toList.take letters.length = letters
  /-- Letters are read as the bytes that they denote, whatever the buffer held. -/
  decode_eq_ok_iff : ∀ (letters : Bytes) (buffer bytes : FixedList size UInt8),
    Converter.decode limit letters buffer = .ok bytes ↔ Denotes letters bytes.toList

section Reading

/-- The letter of a digit is the alphabet's item at its place. -/
theorem letter_eq_getElem {digit : Nat} (inside : digit < alphabet.length) :
    letter digit = alphabet[digit] := by
  simp [letter, inside]

/-- A letter is read as a digit exactly when it is the letter of that digit. No letter occurs twice
in the alphabet, so the search for one cannot stop early. -/
theorem readDigit_eq_ok_iff (character : UInt8) (digit : Nat) :
    readDigit character = .ok digit ↔ digit < 58 ∧ letter digit = character := by
  have distinct : alphabet.Nodup := by decide
  have found : readDigit character = .ok digit ↔ alphabet.idxOf? character = some digit := by
    unfold readDigit
    cases alphabet.idxOf? character with
    | none => simp
    | some place => simp
  rw [found, List.idxOf?_eq_some_iff]
  constructor
  · rintro ⟨inside, rfl, -⟩
    exact ⟨inside, letter_eq_getElem inside⟩
  · rintro ⟨small, rfl⟩
    have inside : digit < alphabet.length := small
    rw [letter_eq_getElem inside]
    exact ⟨inside, rfl, fun earlier before same =>
      Nat.ne_of_lt before ((List.getElem_inj distinct).mp same)⟩

/-- Letters are read as digits exactly when they are the letters of those digits. -/
theorem mapM_readDigit_eq_ok_iff (letters : Bytes) (spelled : List Nat) :
    letters.mapM readDigit = .ok spelled ↔
      (∀ digit ∈ spelled, digit < 58) ∧ letters = spelled.map letter := by
  rw [Outcome.mapM_eq_ok_iff]
  constructor
  · intro read
    induction read with
    | nil => simp
    | cons first _ inductionHypothesis =>
      obtain ⟨small, rfl⟩ := (readDigit_eq_ok_iff _ _).mp first
      obtain ⟨below, rfl⟩ := inductionHypothesis
      exact ⟨List.forall_mem_cons.mpr ⟨small, below⟩, rfl⟩
  · rintro ⟨below, rfl⟩
    rw [List.forall₂_map_left_iff, List.forall₂_same]
    intro digit member
    exact (readDigit_eq_ok_iff _ _).mpr ⟨below digit member, rfl⟩

/-- A number is that of a byte string of `size` bytes exactly when it is small enough and these
bytes are written for it. -/
theorem eq_toNat_reverse_iff {size : Nat} (number : Nat) (bytes : FixedList size UInt8) :
    number = Bytes.toNat bytes.toList.reverse ↔
      number < Nat.pow 256 size ∧ (FixedList.ofNat size number).reverse = bytes := by
  have width : bytes.toList.reverse.length = size := bytes.reverse.length_toList
  constructor
  · rintro rfl
    have bounded := Bytes.toNat_lt bytes.toList.reverse
    have written := Bytes.ofNat_toNat bytes.toList.reverse
    rw [width] at bounded written
    refine ⟨bounded, FixedList.ext ?_⟩
    exact (congrArg List.reverse written).trans bytes.toList.reverse_reverse
  · rintro ⟨small, rfl⟩
    have kept : Bytes.toNat (Bytes.ofNat size number) = number :=
      (Bytes.toNat_ofNat size number).trans (Nat.mod_eq_of_lt small)
    exact ((congrArg Bytes.toNat (Bytes.ofNat size number).reverse_reverse).trans kept).symm

/-- Reading accepts exactly the letters that denote a byte string of the wanted size. -/
theorem decode_eq_ok_iff {size : Nat} (letters : Bytes) (bytes : FixedList size UInt8) :
    decode size letters = .ok bytes ↔ Denotes letters bytes.toList := by
  simp only [decode, Outcome.bind_eq_ok_iff, Outcome.refuse_eq_ok_iff, mapM_readDigit_eq_ok_iff]
  constructor
  · rintro ⟨spelled, ⟨below, rfl⟩, small, notFewer, notMore, returned⟩
    cases returned
    refine ⟨spelled, ⟨below, ?_, by omega⟩, rfl⟩
    rw [← value_eq]
    exact (eq_toNat_reverse_iff _ _).mpr ⟨Nat.lt_of_not_le small, rfl⟩
  · rintro ⟨spelled, spells, rfl⟩
    obtain ⟨small, rebuilt⟩ :=
      (eq_toNat_reverse_iff (value spelled) bytes).mp ((value_eq spelled).trans spells.number)
    have zeros := spells.zeros
    refine ⟨spelled, ⟨spells.below, rfl⟩, Nat.not_le.mpr small, ?_⟩
    rw [rebuilt]
    exact ⟨by omega, by omega, rfl⟩

end Reading

/-- The converter that the library is run with converts. A byte is enough to count the letters of a
buffer, which is all that its size has to do with it. -/
theorem converts {size limit : Nat} (counted : limit < 256) :
    @Converts size limit (converter size limit) where
  encode_eq bytes buffer letters denotes fits := by
    have written : encode bytes.toList = letters :=
      (encode_eq _).trans ((denotes_iff _ _).mp denotes).symm
    change (UInt8.ofNat (encode bytes.toList).length).toNat = letters.length ∧
      (fill (encode bytes.toList) buffer).toList.take letters.length = letters
    rw [written]
    constructor
    · exact UInt8.toNat_ofNat_of_lt' (Nat.lt_of_le_of_lt fits counted)
    · rw [fill, List.take_take, Nat.min_eq_left fits, List.take_left' rfl]
  decode_eq_ok_iff letters _ bytes := decode_eq_ok_iff letters bytes

end Transact.Base58
