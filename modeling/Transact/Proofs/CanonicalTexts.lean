import Transact.Ed25519.Scheme
import Transact.Hash
import Transact.Keypair
import Transact.Proofs.Conversion

/-!
# One text for each value

Addresses, hashes, signatures and key pairs are shown in base 58 and read back from it. A reader
refuses a text that is too long before a converter sees it, and a writer has a buffer of that size.
Both limits have to be right for the longest text that a value can have, whatever its leading zeros.

Letters are bytes of their own in a text, so a text can be told from its bytes, and the letters that
denote a byte string are the bytes of one text (`letters_textOf`). With a converter that converts,
this is the text that is written (`write?_eq`) and the only one that is read (`read_eq_ok_iff`). The
main statement, `soleText_each`, says for each of the four kinds of value that it has one text,
which fits. For key pairs it also takes that keys are derived from their secrets and read from two
halves that match.
-/

namespace Transact

namespace Base58

/-- The bytes of a text. -/
def lettersOf (text : String) : Bytes := text.toUTF8.data.toList

/-- The text of the letters that denote a byte string. -/
def textOf (bytes : Bytes) : String := ofLetters ((spelling bytes).map letter)

section Texts

/-- A text is known from its bytes. -/
theorem lettersOf_inj {first second : String} (same : lettersOf first = lettersOf second) :
    first = second :=
  String.toByteArray_inj.mp (ByteArray.ext (Array.toList_inj.mp same))

/-- A text is as long as its bytes are many. -/
theorem length_lettersOf (text : String) : (lettersOf text).length = text.utf8ByteSize := rfl

/-- The bytes of a text are those of a text. -/
theorem fromUTF8?_lettersOf (text : String) :
    String.fromUTF8? ⟨(lettersOf text).toArray⟩ = some text :=
  dif_pos text.isValidUTF8

/-- Every letter is a character of a single byte. -/
theorem letter_lt (digit : Nat) : (letter digit).toNat < 128 := by
  have single : alphabet.all (fun letter => letter.toNat < 128) = true := by decide
  rw [letter, List.getD_eq_getElem?_getD]
  cases found : alphabet[digit]? with
  | none => decide
  | some letter =>
    exact of_decide_eq_true (List.all_eq_true.mp single letter (List.mem_of_getElem? found))

/-- A character with a small code is encoded as that code. -/
theorem utf8EncodeChar_of_lt {letter : UInt8} (small : letter.toNat < 128) :
    String.utf8EncodeChar (Char.ofNat letter.toNat) = [letter] := by
  have code : (Char.ofNat letter.toNat).val.toNat = letter.toNat := by
    rw [Char.ofNat, dif_pos (Or.inl (by omega))]
    rfl
  have single : (Char.ofNat letter.toNat).utf8Size = 1 := by
    rw [Char.utf8Size_eq_one_iff, UInt32.le_iff_toNat_le, code]
    exact Nat.le_of_lt_succ small
  rw [String.utf8EncodeChar_eq_singleton single]
  refine congrArg (· :: []) (UInt8.toNat_inj.mp ?_)
  rw [UInt32.toNat_toUInt8, code]
  omega

/-- A text that has a character for each of some small letters has these letters as its bytes. -/
theorem lettersOf_ofLetters {letters : Bytes} (small : ∀ letter ∈ letters, letter.toNat < 128) :
    lettersOf (ofLetters letters) = letters := by
  have encoded : (letters.map fun letter => Char.ofNat letter.toNat).flatMap
      String.utf8EncodeChar = letters := by
    rw [List.flatMap_map, List.flatMap_congr fun letter member =>
      utf8EncodeChar_of_lt (small letter member), List.flatMap_singleton']
  rw [lettersOf, ofLetters, String.toUTF8_eq_toByteArray, String.toByteArray_ofList,
    List.utf8Encode, encoded, List.toList_data_toByteArray]

/-- The bytes of the text of a byte string are the letters that denote it. -/
theorem lettersOf_textOf (bytes : Bytes) :
    lettersOf (textOf bytes) = (spelling bytes).map letter :=
  lettersOf_ofLetters (List.forall_mem_map.mpr fun digit _ => letter_lt digit)

/-- The text of a byte string is the one whose bytes denote it. -/
theorem denotes_lettersOf_iff (text : String) (bytes : Bytes) :
    Denotes (lettersOf text) bytes ↔ text = textOf bytes := by
  rw [denotes_iff, ← lettersOf_textOf]
  exact ⟨lettersOf_inj, congrArg lettersOf⟩

/-- The text of a byte string has as many bytes as digits spell it. -/
theorem utf8ByteSize_textOf (bytes : Bytes) :
    (textOf bytes).utf8ByteSize = (spelling bytes).length := by
  rw [← length_lettersOf, lettersOf_textOf, List.length_map]

end Texts

section Converted

variable {size limit : Nat} [Converter size limit]

/-- The letters that are written are those that denote the byte string. -/
theorem letters?_eq (converts : Converts size limit) (room : 256 ^ size ≤ 58 ^ limit)
    (bytes : FixedList size UInt8) :
    letters? limit bytes = some ((spelling bytes.toList).map letter) := by
  have fits : ((spelling bytes.toList).map letter).length ≤ limit := by
    rw [List.length_map]
    exact length_spelling_le _ (bytes.length_toList.symm ▸ room)
  obtain ⟨counted, front⟩ := converts.encode_eq bytes (FixedList.replicate limit 0) _
    ((denotes_iff _ _).mpr rfl) fits
  simp only [letters?, counted, if_pos fits, front]

/-- The text that is written is that of the byte string. -/
theorem write?_eq (converts : Converts size limit) (room : 256 ^ size ≤ 58 ^ limit)
    (bytes : FixedList size UInt8) : write? limit bytes = some (textOf bytes.toList) := by
  rw [write?, letters?_eq converts room, ← lettersOf_textOf]
  exact fromUTF8?_lettersOf _

/-- A text is read by the converter as a byte string exactly when it is the text of that, as no such
text is too long to be looked at. -/
theorem read?_eq_ok_iff (converts : Converts size limit) (room : 256 ^ size ≤ 58 ^ limit)
    (text : String) (bytes : FixedList size UInt8) :
    read? size limit text = some (.ok bytes) ↔ text = textOf bytes.toList := by
  have decoded := converts.decode_eq_ok_iff (lettersOf text) (FixedList.replicate size 0) bytes
  rw [denotes_lettersOf_iff, lettersOf] at decoded
  rw [read?]
  split
  · rename_i long
    simp only [reduceCtorEq, false_iff]
    rintro rfl
    rw [utf8ByteSize_textOf] at long
    exact Nat.not_le.mpr long (length_spelling_le _ (bytes.length_toList.symm ▸ room))
  · rw [Option.some.injEq]
    exact decoded

/-- A text is read as a byte string exactly when it is the text of that. -/
theorem read_eq_ok_iff (converts : Converts size limit) (room : 256 ^ size ≤ 58 ^ limit)
    (text : String) (bytes : FixedList size UInt8) :
    read size limit text = .ok bytes ↔ text = textOf bytes.toList := by
  rw [← read?_eq_ok_iff converts room, read]
  cases read? size limit text with
  | none => simp
  | some outcome => simp [Outcome.mapError_eq_ok_iff]

end Converted

end Base58

/-- A value has one text: it is written as the text, the text is the only one whose letters denote
the value's bytes and the only one that is read as the value, and it is no longer than the limit. -/
structure SoleText {fault α : Type} (read : String → Except fault α) (written : Option String)
    (value : α) (bytes : Bytes) (limit : Nat) (text : String) : Prop where
  /-- It is what is written for the value. -/
  written_eq : written = some text
  /-- It is what is read as the value, and nothing else is. -/
  read_iff : ∀ other, read other = .ok value ↔ other = text
  /-- Its letters denote the bytes, and those of no other text do. -/
  denotes_iff : ∀ other, Base58.Denotes (Base58.lettersOf other) bytes ↔ other = text
  /-- It fits. -/
  bounded : text.utf8ByteSize ≤ limit

namespace SoleText

variable {fault α : Type} {size limit : Nat}

/-- If the text of a value's bytes is written for it and nothing else is read as the value, then it
is the value's one text. -/
theorem of_read_iff {read : String → Except fault α} {written : Option String} {value : α}
    {bytes : Bytes} (room : 256 ^ bytes.length ≤ 58 ^ limit)
    (writes : written = some (Base58.textOf bytes))
    (accepts : ∀ text, read text = .ok value ↔ text = Base58.textOf bytes) :
    SoleText read written value bytes limit (written.getD "") := by
  rw [writes, Option.getD_some]
  refine ⟨rfl, accepts, fun other => Base58.denotes_lettersOf_iff other bytes, ?_⟩
  rw [Base58.utf8ByteSize_textOf]
  exact Base58.length_spelling_le bytes room

/-- A value that is nothing but bytes of a known number has one text. -/
theorem of_bytes [Base58.Converter size limit] (converts : Base58.Converts size limit)
    (room : 256 ^ size ≤ 58 ^ limit) {make : FixedList size UInt8 → α}
    (injective : ∀ first second, make first = make second → first = second)
    (bytes : FixedList size UInt8) :
    SoleText (fun text => (Base58.read size limit text).map make) (Base58.write? limit bytes)
      (make bytes) bytes.toList limit ((Base58.write? limit bytes).getD "") := by
  refine of_read_iff (bytes.length_toList.symm ▸ room) (Base58.write?_eq converts room bytes)
    fun text => ?_
  rw [Outcome.map_eq_ok_iff, ← Base58.read_eq_ok_iff converts room]
  constructor
  · rintro ⟨other, decoded, same⟩
    rw [decoded, injective other bytes same]
  · intro decoded
    exact ⟨bytes, decoded, rfl⟩

end SoleText

namespace Keypair

variable [SignatureScheme]

/-- A key pair is read from exactly its own bytes. The secret half decides which key pair is read,
and the public half only whether one is. -/
theorem ofBytes_eq_ok_iff (derives : SignatureScheme.DerivesKeys) (bytes : Bytes)
    (keypair : Keypair) : ofBytes bytes = .ok keypair ↔ bytes = keypair.toBytes := by
  constructor
  · intro accepted
    unfold ofBytes at accepted
    split at accepted
    · cases accepted
    next halves admitted =>
      split at accepted
      next key matching =>
        cases accepted
        have whole := FixedList.append_front_back (n := 32) (m := 32) halves
        rw [← whole, derives.ofHalves_eq_some_iff] at matching
        obtain ⟨derived, given⟩ := matching
        rw [← (FixedList.ofList_eq_ok_iff _ _).mp admitted, toBytes, Keypair.bytes,
          derives.toHalves_eq, given, ← derived, derives.secret_ofSecret, whole]
      next => cases accepted
  · rintro rfl
    have matching : SignatureScheme.ofHalves keypair.bytes = some keypair.key := by
      rw [Keypair.bytes, derives.toHalves_eq, derives.ofHalves_eq_some_iff]
      exact ⟨derives.ofSecret_secret keypair.key, rfl⟩
    have admitted : FixedList.ofList 64 keypair.toBytes = .ok keypair.bytes :=
      (FixedList.ofList_eq_ok_iff _ _).mpr rfl
    simp only [ofBytes, admitted, matching]

/-- A key pair is read from exactly the text of its bytes. -/
theorem ofBase58_eq_ok_iff [Base58.Converter 64 88] (converts : Base58.Converts 64 88)
    (derives : SignatureScheme.DerivesKeys) (text : String) (keypair : Keypair) :
    ofBase58 text = .ok keypair ↔ text = Base58.textOf keypair.toBytes := by
  have read_iff := Base58.read?_eq_ok_iff converts (by decide) text
  constructor
  · intro accepted
    unfold ofBase58 at accepted
    split at accepted
    next bytes decoded =>
      rw [← (ofBytes_eq_ok_iff derives _ _).mp accepted]
      exact (read_iff bytes).mp decoded
    next => cases accepted
  · intro own
    rw [ofBase58, (read_iff keypair.bytes).mpr own]
    exact (ofBytes_eq_ok_iff derives _ _).mpr rfl

end Keypair

/-- Addresses, hashes, signatures and key pairs each have one text: it is written for the value and
read back as the value, nothing else is, and the limits of 44 and 88 letters cut off none. -/
theorem soleText_each [Base58.Converter 32 44] [Base58.Converter 64 88] [SignatureScheme]
    (converts32 : Base58.Converts 32 44) (converts64 : Base58.Converts 64 88)
    (derives : SignatureScheme.DerivesKeys) (address : Address) (hash : Hash)
    (signature : Signature) (keypair : Keypair) :
    SoleText Address.parse address.text? address address.toBytes 44 address.text ∧
      SoleText Hash.parse hash.text? hash hash.toBytes 44 hash.text ∧
      SoleText Signature.parse signature.text? signature signature.toBytes 88 signature.text ∧
      SoleText Keypair.ofBase58 keypair.text? keypair keypair.toBytes 88 keypair.text := by
  have room32 : 256 ^ 32 ≤ 58 ^ 44 := by decide
  have room64 : 256 ^ 64 ≤ 58 ^ 88 := by decide
  refine ⟨?_, ?_, ?_, ?_⟩
  · exact .of_bytes converts32 room32 (fun _ _ => Address.mk.inj) address.bytes
  · exact .of_bytes converts32 room32 (fun _ _ => Hash.mk.inj) hash.bytes
  · exact .of_bytes converts64 room64 (fun _ _ => Signature.mk.inj) signature.bytes
  · refine .of_read_iff (keypair.bytes.length_toList.symm ▸ room64) ?_
      fun text => Keypair.ofBase58_eq_ok_iff converts64 derives text keypair
    rw [Keypair.text?, Base58.letters?_eq converts64 room64, Option.map_some]
    rfl

/-- A key pair whose text is known. -/
def sampleKeypair : Keypair :=
  .ofSecret ⟨[214, 49, 53, 208, 232, 140, 85, 41, 45, 128, 173, 3, 79, 105, 136, 236, 132, 164, 35,
    93, 59, 196, 51, 59, 127, 139, 1, 155, 245, 83, 230, 184], rfl⟩

/-- Its text. -/
def sampleKeypairText : String :=
  "5HNxRJoirY4oRTcRwiEYFALSSLn9nMAyLQKDuSuiCJ966816BjwGuamRdTLTsR2FBHiB7CQkGaw6B4ehBMogPRvW"

/-- The largest hash. -/
def sampleHash : Hash := ⟨.replicate 32 255⟩

/-- With the converter and the scheme that the library is run with, zero bytes have texts of as many
letters, the largest hash has one that takes the whole of its limit, and the key pair has the known
one. -/
theorem soleText_each_sample :
    SoleText Address.parse Address.zero.text? Address.zero Address.zero.toBytes 44
        "11111111111111111111111111111111" ∧
      SoleText Hash.parse sampleHash.text? sampleHash sampleHash.toBytes 44
        "JEKNVnkbo3jma5nREBBJCDoXFVeKkD56V3xKrvRmWxFG" ∧
      SoleText Signature.parse Signature.zero.text? Signature.zero Signature.zero.toBytes 88
        "1111111111111111111111111111111111111111111111111111111111111111" ∧
      SoleText Keypair.ofBase58 sampleKeypair.text? sampleKeypair sampleKeypair.toBytes 88
        sampleKeypairText := by
  have addressText : Address.zero.text = "11111111111111111111111111111111" := by decide +kernel
  have hashText : sampleHash.text = "JEKNVnkbo3jma5nREBBJCDoXFVeKkD56V3xKrvRmWxFG" := by
    decide +kernel
  have signatureText : Signature.zero.text =
      "1111111111111111111111111111111111111111111111111111111111111111" := by decide +kernel
  have keypairText : sampleKeypair.text = sampleKeypairText := by decide +kernel
  rw [← addressText, ← hashText, ← signatureText, ← keypairText]
  exact soleText_each (Base58.converts (by decide)) (Base58.converts (by decide))
    Ed25519.derivesKeys Address.zero sampleHash Signature.zero sampleKeypair

end Transact
