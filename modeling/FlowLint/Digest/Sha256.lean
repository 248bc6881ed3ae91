import FlowLint.Text.Hex

/-! # SHA-256

The digest of bytes as the Secure Hash Standard defines it. Nothing is established here about
collisions; digests stand for contents only as far as none of those at hand collide.
-/

namespace FlowLint.Digest

/-- The first 32 bits of the fractional parts of the cube roots of the first 64 primes. -/
def roundConstants : List UInt32 :=
  [0x428a2f98, 0x71374491, 0xb5c0fbcf, 0xe9b5dba5, 0x3956c25b, 0x59f111f1, 0x923f82a4, 0xab1c5ed5,
    0xd807aa98, 0x12835b01, 0x243185be, 0x550c7dc3, 0x72be5d74, 0x80deb1fe, 0x9bdc06a7, 0xc19bf174,
    0xe49b69c1, 0xefbe4786, 0x0fc19dc6, 0x240ca1cc, 0x2de92c6f, 0x4a7484aa, 0x5cb0a9dc, 0x76f988da,
    0x983e5152, 0xa831c66d, 0xb00327c8, 0xbf597fc7, 0xc6e00bf3, 0xd5a79147, 0x06ca6351, 0x14292967,
    0x27b70a85, 0x2e1b2138, 0x4d2c6dfc, 0x53380d13, 0x650a7354, 0x766a0abb, 0x81c2c92e, 0x92722c85,
    0xa2bfe8a1, 0xa81a664b, 0xc24b8b70, 0xc76c51a3, 0xd192e819, 0xd6990624, 0xf40e3585, 0x106aa070,
    0x19a4c116, 0x1e376c08, 0x2748774c, 0x34b0bcb5, 0x391c0cb3, 0x4ed8aa4a, 0x5b9cca4f, 0x682e6ff3,
    0x748f82ee, 0x78a5636f, 0x84c87814, 0x8cc70208, 0x90befffa, 0xa4506ceb, 0xbef9a3f7, 0xc67178f2]

/-- The state of the hash: eight words. -/
structure State where
  a : UInt32
  b : UInt32
  c : UInt32
  d : UInt32
  e : UInt32
  f : UInt32
  g : UInt32
  h : UInt32
deriving Repr, DecidableEq, Inhabited

/-- The first 32 bits of the fractional parts of the square roots of the first eight primes. -/
def State.initial : State :=
  ⟨0x6a09e667, 0xbb67ae85, 0x3c6ef372, 0xa54ff53a, 0x510e527f, 0x9b05688c, 0x1f83d9ab, 0x5be0cd19⟩

/-- The word turned to the right by some bits, fewer than 32 and more than none. -/
def rotateRight (x : UInt32) (n : UInt32) : UInt32 :=
  (x >>> n) ||| (x <<< (32 - n))

/-- One round with a word that already holds the round's constant. -/
def State.round (s : State) (kw : UInt32) : State :=
  let s1 := rotateRight s.e 6 ^^^ rotateRight s.e 11 ^^^ rotateRight s.e 25
  let choice := (s.e &&& s.f) ^^^ (~~~s.e &&& s.g)
  let t1 := s.h + s1 + choice + kw
  let s0 := rotateRight s.a 2 ^^^ rotateRight s.a 13 ^^^ rotateRight s.a 22
  let majority := (s.a &&& s.b) ^^^ (s.a &&& s.c) ^^^ (s.b &&& s.c)
  ⟨t1 + (s0 + majority), s.a, s.b, s.c, s.d + t1, s.e, s.f, s.g⟩

/-- The words added place by place. -/
def State.add (s t : State) : State :=
  ⟨s.a + t.a, s.b + t.b, s.c + t.c, s.d + t.d, s.e + t.e, s.f + t.f, s.g + t.g, s.h + t.h⟩

/-- The message schedule: words follow from the sixteen before them, which are kept latest first. -/
def extendSchedule : Nat → List UInt32 → List UInt32
  | 0, words => words
  | n + 1, words =>
    let word (back : Nat) : UInt32 := words.getD (back - 1) 0
    let x := word 15
    let y := word 2
    let s0 := rotateRight x 7 ^^^ rotateRight x 18 ^^^ (x >>> 3)
    let s1 := rotateRight y 17 ^^^ rotateRight y 19 ^^^ (y >>> 10)
    extendSchedule n ((word 16 + s0 + word 7 + s1) :: words)

/-- The state after a block of sixteen words. -/
def State.block (s : State) (words : List UInt32) : State :=
  let schedule := (extendSchedule 48 words.reverse).reverse
  let last := (schedule.zip roundConstants).foldl (fun s (w, k) => s.round (k + w)) s
  s.add last

/-- Bytes in groups of four as words, the first byte the highest. -/
def toWords : List UInt8 → List UInt32
  | b0 :: b1 :: b2 :: b3 :: rest =>
    ((b0.toUInt32 <<< 24) ||| (b1.toUInt32 <<< 16) ||| (b2.toUInt32 <<< 8) ||| b3.toUInt32) ::
      toWords rest
  | _ => []

/-- A number in the given count of bytes, the highest first. -/
def numberBytes (n : Nat) : Nat → List UInt8
  | 0 => []
  | count + 1 => (n >>> (8 * count)).toUInt8 :: numberBytes n count

/-- The bytes with the padding that fills the last block: a one bit, zeros, and the number of bits. -/
def pad (bytes : List UInt8) : List UInt8 :=
  let zeros := (55 + 64 - bytes.length % 64) % 64
  bytes ++ 0x80 :: List.replicate zeros 0 ++ numberBytes (8 * bytes.length) 8

/-- The state after all blocks of words; at most `fuel` of them. -/
def State.blocks : Nat → State → List UInt32 → State
  | 0, s, _ => s
  | fuel + 1, s, words =>
    if words.isEmpty then s else State.blocks fuel (s.block (words.take 16)) (words.drop 16)

def State.words (s : State) : List UInt32 :=
  [s.a, s.b, s.c, s.d, s.e, s.f, s.g, s.h]

/-- The digest of bytes, 32 bytes. -/
def sha256 (bytes : List UInt8) : List UInt8 :=
  let padded := pad bytes
  let last := State.initial.blocks (padded.length / 64) (toWords padded)
  last.words.flatMap fun w => numberBytes w.toNat 4

/-- The digest of bytes in lower-case hexadecimal digits. -/
def sha256Hex (bytes : List UInt8) : String :=
  Text.bytesHex (sha256 bytes)

end FlowLint.Digest
