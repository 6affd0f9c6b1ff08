/-!
The digest SHA-256.
-/

namespace PluginSurface.Sha256

/-- The constants of the rounds: the first 32 bits of the fractional parts of the
cube roots of the first 64 primes. -/
def roundConstants : List UInt32 :=
  [0x428a2f98, 0x71374491, 0xb5c0fbcf, 0xe9b5dba5, 0x3956c25b, 0x59f111f1,
    0x923f82a4, 0xab1c5ed5, 0xd807aa98, 0x12835b01, 0x243185be, 0x550c7dc3,
    0x72be5d74, 0x80deb1fe, 0x9bdc06a7, 0xc19bf174, 0xe49b69c1, 0xefbe4786,
    0x0fc19dc6, 0x240ca1cc, 0x2de92c6f, 0x4a7484aa, 0x5cb0a9dc, 0x76f988da,
    0x983e5152, 0xa831c66d, 0xb00327c8, 0xbf597fc7, 0xc6e00bf3, 0xd5a79147,
    0x06ca6351, 0x14292967, 0x27b70a85, 0x2e1b2138, 0x4d2c6dfc, 0x53380d13,
    0x650a7354, 0x766a0abb, 0x81c2c92e, 0x92722c85, 0xa2bfe8a1, 0xa81a664b,
    0xc24b8b70, 0xc76c51a3, 0xd192e819, 0xd6990624, 0xf40e3585, 0x106aa070,
    0x19a4c116, 0x1e376c08, 0x2748774c, 0x34b0bcb5, 0x391c0cb3, 0x4ed8aa4a,
    0x5b9cca4f, 0x682e6ff3, 0x748f82ee, 0x78a5636f, 0x84c87814, 0x8cc70208,
    0x90befffa, 0xa4506ceb, 0xbef9a3f7, 0xc67178f2]

/-- The eight words that blocks are mixed into. -/
structure State where
  a : UInt32
  b : UInt32
  c : UInt32
  d : UInt32
  e : UInt32
  f : UInt32
  g : UInt32
  h : UInt32
deriving DecidableEq

namespace State

/-- The first 32 bits of the fractional parts of the square roots of the first
eight primes. -/
def start : State :=
  ⟨0x6a09e667, 0xbb67ae85, 0x3c6ef372, 0xa54ff53a, 0x510e527f, 0x9b05688c,
    0x1f83d9ab, 0x5be0cd19⟩

def words (state : State) : List UInt32 :=
  [state.a, state.b, state.c, state.d, state.e, state.f, state.g, state.h]

def add (left right : State) : State :=
  ⟨left.a + right.a, left.b + right.b, left.c + right.c, left.d + right.d,
    left.e + right.e, left.f + right.f, left.g + right.g, left.h + right.h⟩

end State

def rotate (word : UInt32) (count : UInt32) : UInt32 :=
  (word >>> count) ||| (word <<< (32 - count))

/-! ## Padding -/

/-- The bytes of a number of 64 bits, the highest first. -/
def lengthBytes (value : Nat) : List UInt8 :=
  (List.range 8).reverse.map fun place => UInt8.ofNat (value >>> (8 * place))

/-- A message filled up to whole blocks of 64 bytes: a single bit, zeros, and the
number of the message's bits. -/
def pad (message : List UInt8) : List UInt8 :=
  let zeros := (119 - message.length % 64) % 64
  message ++ 0x80 :: List.replicate zeros 0 ++ lengthBytes (8 * message.length)

/-- The words that bytes make by fours, the highest byte first. -/
def wordsOf : List UInt8 → List UInt32
  | a :: b :: c :: d :: rest =>
      ((a.toUInt32 <<< 24) ||| (b.toUInt32 <<< 16) ||| (c.toUInt32 <<< 8) |||
        d.toUInt32) :: wordsOf rest
  | _ => []

/-! ## Blocks -/

/-- The words for the rounds that follow those for which a block has words. The
second list holds the last sixteen words, the oldest first. -/
def extend : Nat → List UInt32 → List UInt32
  | 0, _ => []
  | count + 1, recent =>
      let old := recent.getD 1 0
      let new := recent.getD 14 0
      let mixedOld := rotate old 7 ^^^ rotate old 18 ^^^ (old >>> 3)
      let mixedNew := rotate new 17 ^^^ rotate new 19 ^^^ (new >>> 10)
      let word := recent.getD 0 0 + mixedOld + recent.getD 9 0 + mixedNew
      word :: extend count (recent.drop 1 ++ [word])

/-- The words for the 64 rounds of a block of sixteen words. -/
def schedule (block : List UInt32) : List UInt32 :=
  block ++ extend 48 block

def round (state : State) (constant word : UInt32) : State :=
  let choice := (state.e &&& state.f) ^^^ (~~~state.e &&& state.g)
  let majority :=
    (state.a &&& state.b) ^^^ (state.a &&& state.c) ^^^ (state.b &&& state.c)
  let mixedE := rotate state.e 6 ^^^ rotate state.e 11 ^^^ rotate state.e 25
  let mixedA := rotate state.a 2 ^^^ rotate state.a 13 ^^^ rotate state.a 22
  let first := state.h + mixedE + choice + constant + word
  ⟨first + mixedA + majority, state.a, state.b, state.c, state.d + first,
    state.e, state.f, state.g⟩

def compress (state : State) (block : List UInt32) : State :=
  let rounds := roundConstants.zip (schedule block)
  state.add <|
    rounds.foldl (fun state (constant, word) => round state constant word) state

/-- Mixes the blocks that words make by sixteens into a state. The first argument
bounds the number of blocks. -/
def compressAll : Nat → State → List UInt32 → State
  | 0, state, _ => state
  | _, state, [] => state
  | bound + 1, state, words =>
      compressAll bound (compress state (words.take 16)) (words.drop 16)

/-! ## Digests -/

def digest (message : List UInt8) : State :=
  let words := wordsOf (pad message)
  compressAll words.length .start words

def hexDigit (value : UInt32) : Char :=
  Nat.digitChar (value &&& 15).toNat

/-- The eight digits of a word, the highest first. -/
def wordText (word : UInt32) : List Char :=
  [28, 24, 20, 16, 12, 8, 4, 0].map fun (shift : UInt32) =>
    hexDigit (word >>> shift)

/-- The digest of a message in hexadecimal digits. -/
def text (message : List UInt8) : String :=
  String.ofList ((digest message).words.flatMap wordText)

end PluginSurface.Sha256
