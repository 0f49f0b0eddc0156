import Transact.Bytes

/-!
# SHA-512

The digest works on 64-bit words and blocks of sixteen of them. A message is padded to whole blocks
with a single one bit, zeros, and its length in bits; each block is spread over eighty words, and
each word stirs eight words of state once.
-/

namespace Transact.Sha512

/-- The word of each round: the fractions of the cube roots of the first eighty primes. -/
def roundConstants : List UInt64 :=
  [0x428a2f98d728ae22, 0x7137449123ef65cd, 0xb5c0fbcfec4d3b2f, 0xe9b5dba58189dbbc,
   0x3956c25bf348b538, 0x59f111f1b605d019, 0x923f82a4af194f9b, 0xab1c5ed5da6d8118,
   0xd807aa98a3030242, 0x12835b0145706fbe, 0x243185be4ee4b28c, 0x550c7dc3d5ffb4e2,
   0x72be5d74f27b896f, 0x80deb1fe3b1696b1, 0x9bdc06a725c71235, 0xc19bf174cf692694,
   0xe49b69c19ef14ad2, 0xefbe4786384f25e3, 0x0fc19dc68b8cd5b5, 0x240ca1cc77ac9c65,
   0x2de92c6f592b0275, 0x4a7484aa6ea6e483, 0x5cb0a9dcbd41fbd4, 0x76f988da831153b5,
   0x983e5152ee66dfab, 0xa831c66d2db43210, 0xb00327c898fb213f, 0xbf597fc7beef0ee4,
   0xc6e00bf33da88fc2, 0xd5a79147930aa725, 0x06ca6351e003826f, 0x142929670a0e6e70,
   0x27b70a8546d22ffc, 0x2e1b21385c26c926, 0x4d2c6dfc5ac42aed, 0x53380d139d95b3df,
   0x650a73548baf63de, 0x766a0abb3c77b2a8, 0x81c2c92e47edaee6, 0x92722c851482353b,
   0xa2bfe8a14cf10364, 0xa81a664bbc423001, 0xc24b8b70d0f89791, 0xc76c51a30654be30,
   0xd192e819d6ef5218, 0xd69906245565a910, 0xf40e35855771202a, 0x106aa07032bbd1b8,
   0x19a4c116b8d2d0c8, 0x1e376c085141ab53, 0x2748774cdf8eeb99, 0x34b0bcb5e19b48a8,
   0x391c0cb3c5c95a63, 0x4ed8aa4ae3418acb, 0x5b9cca4f7763e373, 0x682e6ff3d6b2b8a3,
   0x748f82ee5defb2fc, 0x78a5636f43172f60, 0x84c87814a1f0ab72, 0x8cc702081a6439ec,
   0x90befffa23631e28, 0xa4506cebde82bde9, 0xbef9a3f7b2c67915, 0xc67178f2e372532b,
   0xca273eceea26619c, 0xd186b8c721c0c207, 0xeada7dd6cde0eb1e, 0xf57d4f7fee6ed178,
   0x06f067aa72176fba, 0x0a637dc5a2c898a6, 0x113f9804bef90dae, 0x1b710b35131c471b,
   0x28db77f523047d84, 0x32caab7b40c72493, 0x3c9ebe0a15c9bebc, 0x431d67c49c100d4c,
   0x4cc5d4becb3e42b6, 0x597f299cfc657e2a, 0x5fcb6fab3ad6faec, 0x6c44198c4a475817]

/-- The eight words of the running digest. -/
structure State where
  /-- The first word, which takes in most of each round. -/
  a : UInt64
  /-- The second word. -/
  b : UInt64
  /-- The third word. -/
  c : UInt64
  /-- The fourth word. -/
  d : UInt64
  /-- The fifth word, which takes in the rest of each round. -/
  e : UInt64
  /-- The sixth word. -/
  f : UInt64
  /-- The seventh word. -/
  g : UInt64
  /-- The last word. -/
  h : UInt64

/-- The digest of nothing: the fractions of the square roots of the first eight primes. -/
def State.initial : State :=
  ⟨0x6a09e667f3bcc908, 0xbb67ae8584caa73b, 0x3c6ef372fe94f82b, 0xa54ff53a5f1d36f1,
    0x510e527fade682d1, 0x9b05688c2b3e6c1f, 0x1f83d9abfb41bd6b, 0x5be0cd19137e2179⟩

/-- Turn a word to the right by a number of bits between 1 and 63. -/
def rotate (word : UInt64) (bits : UInt64) : UInt64 := (word >>> bits) ||| (word <<< (64 - bits))

/-- The word that the schedule adds, given all words so far, latest first. -/
def nextWord (words : List UInt64) : UInt64 :=
  let near := words.getD 1 0
  let far := words.getD 14 0
  (rotate near 19 ^^^ rotate near 61 ^^^ (near >>> 6)) + words.getD 6 0 +
    (rotate far 1 ^^^ rotate far 8 ^^^ (far >>> 7)) + words.getD 15 0

/-- Add `count` words to a schedule, latest first. -/
def extend : (count : Nat) → List UInt64 → List UInt64
  | 0, words => words
  | count + 1, words => extend count (nextWord words :: words)

/-- The eighty words that a block of sixteen is spread over, in order. -/
def schedule (block : List UInt64) : List UInt64 := (extend 64 block.reverse).reverse

/-- Stir the state once. -/
def round (state : State) (constant word : UInt64) : State :=
  let choice := (state.e &&& state.f) ^^^ (~~~state.e &&& state.g)
  let first := state.h + (rotate state.e 14 ^^^ rotate state.e 18 ^^^ rotate state.e 41) +
    choice + constant + word
  let majority := (state.a &&& state.b) ^^^ (state.a &&& state.c) ^^^ (state.b &&& state.c)
  let second := (rotate state.a 28 ^^^ rotate state.a 34 ^^^ rotate state.a 39) + majority
  ⟨first + second, state.a, state.b, state.c, state.d + first, state.e, state.f, state.g⟩

/-- Stir the state once for each constant and word. -/
def rounds (state : State) : (constants words : List UInt64) → State
  | constant :: constants, word :: words => rounds (round state constant word) constants words
  | _, _ => state

/-- Take one block into the digest. -/
def absorb (state : State) (block : List UInt64) : State :=
  let stirred := rounds state roundConstants (schedule block)
  ⟨state.a + stirred.a, state.b + stirred.b, state.c + stirred.c, state.d + stirred.d,
    state.e + stirred.e, state.f + stirred.f, state.g + stirred.g, state.h + stirred.h⟩

/-- A message with a one bit, zeros up to a whole number of blocks, and its length in bits. -/
def pad (message : Bytes) : Bytes :=
  message ++ 0x80 :: List.replicate ((239 - message.length % 128) % 128) 0 ++
    (Bytes.ofNat 16 (8 * message.length)).reverse

/-- The word that eight bytes spell, most significant first. -/
def word (bytes : Bytes) : UInt64 :=
  bytes.foldl (fun high byte => (high <<< 8) ||| byte.toUInt64) 0

/-- The first `count` words of a byte string. -/
def words : (count : Nat) → Bytes → List UInt64
  | 0, _ => []
  | count + 1, bytes => word (bytes.take 8) :: words count (bytes.drop 8)

/-- Take the first `count` blocks of a padded message into the digest. -/
def absorbBlocks (state : State) : (count : Nat) → Bytes → State
  | 0, _ => state
  | count + 1, bytes => absorbBlocks (absorb state (words 16 bytes)) count (bytes.drop 128)

/-- The eight bytes of a word, most significant first. -/
def wordBytes (word : UInt64) : Bytes := (Bytes.ofNat 8 word.toNat).reverse

/-- The digest of a message: 64 bytes. -/
def digest (message : Bytes) : Bytes :=
  let padded := pad message
  let state := absorbBlocks State.initial (padded.length / 128) padded
  [state.a, state.b, state.c, state.d, state.e, state.f, state.g, state.h].flatMap wordBytes

end Transact.Sha512
