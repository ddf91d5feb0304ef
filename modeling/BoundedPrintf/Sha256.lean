import BoundedPrintf.Bytes

/-! The SHA-256 digest of a byte string. -/
namespace BoundedPrintf.Sha256

/-- The eight words that are carried from block to block. -/
structure State where
  a : UInt32
  b : UInt32
  c : UInt32
  d : UInt32
  e : UInt32
  f : UInt32
  g : UInt32
  h : UInt32

/-- Fractional parts of the square roots of the first eight primes. -/
def initial : State :=
  ⟨0x6a09e667, 0xbb67ae85, 0x3c6ef372, 0xa54ff53a, 0x510e527f, 0x9b05688c, 0x1f83d9ab, 0x5be0cd19⟩

/-- Fractional parts of the cube roots of the first sixty-four primes. -/
def roundConstants : List UInt32 := [
  0x428a2f98, 0x71374491, 0xb5c0fbcf, 0xe9b5dba5, 0x3956c25b, 0x59f111f1, 0x923f82a4, 0xab1c5ed5,
  0xd807aa98, 0x12835b01, 0x243185be, 0x550c7dc3, 0x72be5d74, 0x80deb1fe, 0x9bdc06a7, 0xc19bf174,
  0xe49b69c1, 0xefbe4786, 0x0fc19dc6, 0x240ca1cc, 0x2de92c6f, 0x4a7484aa, 0x5cb0a9dc, 0x76f988da,
  0x983e5152, 0xa831c66d, 0xb00327c8, 0xbf597fc7, 0xc6e00bf3, 0xd5a79147, 0x06ca6351, 0x14292967,
  0x27b70a85, 0x2e1b2138, 0x4d2c6dfc, 0x53380d13, 0x650a7354, 0x766a0abb, 0x81c2c92e, 0x92722c85,
  0xa2bfe8a1, 0xa81a664b, 0xc24b8b70, 0xc76c51a3, 0xd192e819, 0xd6990624, 0xf40e3585, 0x106aa070,
  0x19a4c116, 0x1e376c08, 0x2748774c, 0x34b0bcb5, 0x391c0cb3, 0x4ed8aa4a, 0x5b9cca4f, 0x682e6ff3,
  0x748f82ee, 0x78a5636f, 0x84c87814, 0x8cc70208, 0x90befffa, 0xa4506ceb, 0xbef9a3f7, 0xc67178f2]

def rotateRight (word : UInt32) (places : UInt32) : UInt32 := word >>> places ||| word <<< (32 - places)

/-- The message after a one bit, zeros up to a whole number of blocks and its length in bits. -/
def pad (message : Bytes) : Bytes :=
  let zeros := (119 - message.length % 64) % 64
  let bits := 8 * message.length
  message ++ 0x80 :: List.replicate zeros 0 ++
    (List.range 8).map fun place => UInt8.ofNat (bits / 256 ^ (7 - place))

/-- Groups of four bytes as words, the first byte highest. -/
def words : Bytes → List UInt32
  | a :: b :: c :: d :: rest =>
      (a.toUInt32 <<< 24 ||| b.toUInt32 <<< 16 ||| c.toUInt32 <<< 8 ||| d.toUInt32) :: words rest
  | _ => []

/-- The sixty-four words of a block: its own sixteen, and each further one from four before it. -/
def schedule (block : List UInt32) : Array UInt32 :=
  (List.range 48).foldl (fun words i =>
    let early := words.getD (i + 1) 0
    let late := words.getD (i + 14) 0
    let lower := rotateRight early 7 ^^^ rotateRight early 18 ^^^ early >>> 3
    let upper := rotateRight late 17 ^^^ rotateRight late 19 ^^^ late >>> 10
    words.push (words.getD i 0 + lower + words.getD (i + 9) 0 + upper)) block.toArray

def round (state : State) (constant word : UInt32) : State :=
  let upper := rotateRight state.e 6 ^^^ rotateRight state.e 11 ^^^ rotateRight state.e 25
  let choice := (state.e &&& state.f) ^^^ (~~~state.e &&& state.g)
  let first := state.h + upper + choice + constant + word
  let lower := rotateRight state.a 2 ^^^ rotateRight state.a 13 ^^^ rotateRight state.a 22
  let majority := (state.a &&& state.b) ^^^ (state.a &&& state.c) ^^^ (state.b &&& state.c)
  ⟨first + (lower + majority), state.a, state.b, state.c, state.d + first, state.e, state.f, state.g⟩

def compress (state : State) (block : List UInt32) : State :=
  let last := (roundConstants.zip (schedule block).toList).foldl
    (fun state (constant, word) => round state constant word) state
  ⟨state.a + last.a, state.b + last.b, state.c + last.c, state.d + last.d,
    state.e + last.e, state.f + last.f, state.g + last.g, state.h + last.h⟩

/-- The state after all blocks of sixteen words. -/
def compressAll (state : State) (words : List UInt32) : State :=
  if words.isEmpty then state else compressAll (compress state (words.take 16)) (words.drop 16)
termination_by words.length
decreasing_by
  cases words with
  | nil => contradiction
  | cons word rest => simp only [List.length_drop, List.length_cons]; omega

/-- The digest in lower-case hexadecimal digits. -/
def hex (message : Bytes) : String :=
  let state := compressAll initial (words (pad message))
  let digits (word : UInt32) : List Char :=
    (List.range 8).map fun place => (word.toNat / 16 ^ (7 - place) % 16).digitChar
  String.ofList ([state.a, state.b, state.c, state.d, state.e, state.f, state.g, state.h].flatMap digits)

end BoundedPrintf.Sha256
