/-!
# SHA-256

The digest of a sequence of bytes: the bytes are padded to whole blocks of 64, each block is
spread to a schedule of 64 words, and 64 rounds mix the schedule into eight words of state. All
arithmetic is that of 32-bit words.
-/

namespace WiredGraph

namespace Sha256

/-- The eight words that are carried from block to block. -/
structure State where
  a : UInt32
  b : UInt32
  c : UInt32
  d : UInt32
  e : UInt32
  f : UInt32
  g : UInt32
  h : UInt32
deriving DecidableEq, Repr

/-- The words before the first block. -/
def initial : State :=
  ⟨0x6a09e667, 0xbb67ae85, 0x3c6ef372, 0xa54ff53a, 0x510e527f, 0x9b05688c, 0x1f83d9ab, 0x5be0cd19⟩

/-- The constant of each round. -/
def constants : List UInt32 := [
  0x428a2f98, 0x71374491, 0xb5c0fbcf, 0xe9b5dba5, 0x3956c25b, 0x59f111f1, 0x923f82a4, 0xab1c5ed5,
  0xd807aa98, 0x12835b01, 0x243185be, 0x550c7dc3, 0x72be5d74, 0x80deb1fe, 0x9bdc06a7, 0xc19bf174,
  0xe49b69c1, 0xefbe4786, 0x0fc19dc6, 0x240ca1cc, 0x2de92c6f, 0x4a7484aa, 0x5cb0a9dc, 0x76f988da,
  0x983e5152, 0xa831c66d, 0xb00327c8, 0xbf597fc7, 0xc6e00bf3, 0xd5a79147, 0x06ca6351, 0x14292967,
  0x27b70a85, 0x2e1b2138, 0x4d2c6dfc, 0x53380d13, 0x650a7354, 0x766a0abb, 0x81c2c92e, 0x92722c85,
  0xa2bfe8a1, 0xa81a664b, 0xc24b8b70, 0xc76c51a3, 0xd192e819, 0xd6990624, 0xf40e3585, 0x106aa070,
  0x19a4c116, 0x1e376c08, 0x2748774c, 0x34b0bcb5, 0x391c0cb3, 0x4ed8aa4a, 0x5b9cca4f, 0x682e6ff3,
  0x748f82ee, 0x78a5636f, 0x84c87814, 0x8cc70208, 0x90befffa, 0xa4506ceb, 0xbef9a3f7, 0xc67178f2]

/-- A word with its bits turned to the right. -/
def rotate (word amount : UInt32) : UInt32 := (word >>> amount) ||| (word <<< (32 - amount))

/-- The word of four bytes, the first of them the highest. -/
def wordOfBytes (first second third fourth : UInt8) : UInt32 :=
  first.toUInt32 <<< 24 ||| second.toUInt32 <<< 16 ||| third.toUInt32 <<< 8 ||| fourth.toUInt32

/-- The words of a sequence of bytes whose length is a multiple of four. -/
def wordsOfBytes : List UInt8 → List UInt32
  | first :: second :: third :: fourth :: rest =>
      wordOfBytes first second third fourth :: wordsOfBytes rest
  | _ => []

/-- The bytes of a number, the first of them the highest. -/
def bytesOfNat : (count : Nat) → Nat → List UInt8
  | 0, _ => []
  | count + 1, value => UInt8.ofNat (value / Nat.pow 256 count) :: bytesOfNat count value

/-- A message with a one bit, as many zeros as are needed, and its length in bits. -/
def pad (message : List UInt8) : List UInt8 :=
  let zeros := (119 - message.length % 64) % 64
  message ++ 0x80 :: List.replicate zeros 0 ++ bytesOfNat 8 (8 * message.length)

/-- The next word of a schedule whose last sixteen words are given, the latest first. -/
def nextWord (latest : List UInt32) : UInt32 :=
  let back (distance : Nat) : UInt32 := latest[distance - 1]?.getD 0
  let low := back 15
  let high := back 2
  let lowMix := rotate low 7 ^^^ rotate low 18 ^^^ (low >>> 3)
  let highMix := rotate high 17 ^^^ rotate high 19 ^^^ (high >>> 10)
  back 16 + lowMix + back 7 + highMix

/-- Puts so many further words in front of a schedule that has its latest word first. -/
def extend : Nat → List UInt32 → List UInt32
  | 0, latest => latest
  | count + 1, latest => extend count (nextWord latest :: latest)

/-- The schedule of a block of sixteen words. -/
def schedule (block : List UInt32) : List UInt32 := (extend 48 block.reverse).reverse

/-- One round. -/
def round (state : State) (mixed : UInt32 × UInt32) : State :=
  let (constant, word) := mixed
  let ⟨a, b, c, d, e, f, g, h⟩ := state
  let choice := (e &&& f) ^^^ (~~~e &&& g)
  let majority := (a &&& b) ^^^ (a &&& c) ^^^ (b &&& c)
  let first := h + (rotate e 6 ^^^ rotate e 11 ^^^ rotate e 25) + choice + constant + word
  let second := (rotate a 2 ^^^ rotate a 13 ^^^ rotate a 22) + majority
  ⟨first + second, a, b, c, d + first, e, f, g⟩

/-- The state after a block. -/
def compress (state : State) (block : List UInt32) : State :=
  let mixed := (constants.zip (schedule block)).foldl round state
  ⟨state.a + mixed.a, state.b + mixed.b, state.c + mixed.c, state.d + mixed.d,
    state.e + mixed.e, state.f + mixed.f, state.g + mixed.g, state.h + mixed.h⟩

/-- The state after all blocks of a sequence of words. -/
def absorb (state : State) (words : List UInt32) : State :=
  if words.length < 16 then state
  else absorb (compress state (words.take 16)) (words.drop 16)
termination_by words.length

/-- The eight words of the digest of a message. -/
def digest (message : List UInt8) : List UInt32 :=
  let ⟨a, b, c, d, e, f, g, h⟩ := absorb initial (wordsOfBytes (pad message))
  [a, b, c, d, e, f, g, h]

/-- Eight hexadecimal digits of a word. -/
def hexWord (word : UInt32) : List Char :=
  let digits := Nat.toDigits 16 word.toNat
  List.replicate (8 - digits.length) '0' ++ digits

/-- The digest of a text in hexadecimal digits. -/
def hexDigest (text : String) : String :=
  String.ofList ((digest text.toUTF8.toList).flatMap hexWord)

end Sha256

end WiredGraph
