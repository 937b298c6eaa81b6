import ShieldWard.Lib.Bytes

/-!
# SHA-256

The hash function of FIPS 180-4 on byte strings.
-/

namespace Sha256

def roundConstants : List UInt32 :=
  [0x428a2f98, 0x71374491, 0xb5c0fbcf, 0xe9b5dba5, 0x3956c25b, 0x59f111f1, 0x923f82a4, 0xab1c5ed5,
    0xd807aa98, 0x12835b01, 0x243185be, 0x550c7dc3, 0x72be5d74, 0x80deb1fe, 0x9bdc06a7, 0xc19bf174,
    0xe49b69c1, 0xefbe4786, 0x0fc19dc6, 0x240ca1cc, 0x2de92c6f, 0x4a7484aa, 0x5cb0a9dc, 0x76f988da,
    0x983e5152, 0xa831c66d, 0xb00327c8, 0xbf597fc7, 0xc6e00bf3, 0xd5a79147, 0x06ca6351, 0x14292967,
    0x27b70a85, 0x2e1b2138, 0x4d2c6dfc, 0x53380d13, 0x650a7354, 0x766a0abb, 0x81c2c92e, 0x92722c85,
    0xa2bfe8a1, 0xa81a664b, 0xc24b8b70, 0xc76c51a3, 0xd192e819, 0xd6990624, 0xf40e3585, 0x106aa070,
    0x19a4c116, 0x1e376c08, 0x2748774c, 0x34b0bcb5, 0x391c0cb3, 0x4ed8aa4a, 0x5b9cca4f, 0x682e6ff3,
    0x748f82ee, 0x78a5636f, 0x84c87814, 0x8cc70208, 0x90befffa, 0xa4506ceb, 0xbef9a3f7, 0xc67178f2]

structure State where
  a : UInt32
  b : UInt32
  c : UInt32
  d : UInt32
  e : UInt32
  f : UInt32
  g : UInt32
  h : UInt32

def State.initial : State :=
  ⟨0x6a09e667, 0xbb67ae85, 0x3c6ef372, 0xa54ff53a, 0x510e527f, 0x9b05688c, 0x1f83d9ab, 0x5be0cd19⟩

def State.add (s t : State) : State :=
  ⟨s.a + t.a, s.b + t.b, s.c + t.c, s.d + t.d, s.e + t.e, s.f + t.f, s.g + t.g, s.h + t.h⟩

def rotate (n x : UInt32) : UInt32 := (x >>> n) ||| (x <<< (32 - n))

/-- The last sixteen words, the latest first, give the next one. -/
def nextWord (words : List UInt32) : UInt32 :=
  let w (back : ℕ) := words.getD (back - 1) 0
  let lower := rotate 7 (w 15) ^^^ rotate 18 (w 15) ^^^ (w 15 >>> 3)
  let upper := rotate 17 (w 2) ^^^ rotate 19 (w 2) ^^^ (w 2 >>> 10)
  upper + w 7 + lower + w 16

def expand : ℕ → List UInt32 → List UInt32
  | 0, words => words
  | steps + 1, words => expand steps (nextWord words :: words)

def round (s : State) (constant word : UInt32) : State :=
  let upper := rotate 6 s.e ^^^ rotate 11 s.e ^^^ rotate 25 s.e
  let choice := (s.e &&& s.f) ^^^ (~~~s.e &&& s.g)
  let first := s.h + upper + choice + constant + word
  let lower := rotate 2 s.a ^^^ rotate 13 s.a ^^^ rotate 22 s.a
  let majority := (s.a &&& s.b) ^^^ (s.a &&& s.c) ^^^ (s.b &&& s.c)
  ⟨first + (lower + majority), s.a, s.b, s.c, s.d + first, s.e, s.f, s.g⟩

def compress (s : State) (block : List UInt32) : State :=
  let words := (expand 48 block.reverse).reverse
  s.add ((roundConstants.zip words).foldl (fun t step => round t step.1 step.2) s)

/-- Big-endian words. -/
def words : Bytes → List UInt32
  | a :: b :: c :: d :: rest =>
    ((a.toUInt32 <<< 24) ||| (b.toUInt32 <<< 16) ||| (c.toUInt32 <<< 8) ||| d.toUInt32) :: words rest
  | _ => []

def wordBytes (word : UInt32) : Bytes :=
  [(word >>> 24).toUInt8, (word >>> 16).toUInt8, (word >>> 8).toUInt8, word.toUInt8]

/-- Eight bytes, the most significant one first. -/
def lengthBytes (bits : ℕ) : Bytes :=
  (List.range 8).map fun i => UInt8.ofNat (bits >>> (8 * (7 - i)))

/-- A one bit, zeros, and the length in bits fill the last block. -/
def pad (message : Bytes) : Bytes :=
  message ++ 0x80 :: List.replicate ((119 - message.length % 64) % 64) 0 ++
    lengthBytes (8 * message.length)

def compressBlocks : ℕ → State → List UInt32 → State
  | 0, s, _ => s
  | blocks + 1, s, words => compressBlocks blocks (compress s (words.take 16)) (words.drop 16)

def State.bytes (s : State) : Bytes :=
  [s.a, s.b, s.c, s.d, s.e, s.f, s.g, s.h].flatMap wordBytes

def hash (message : Bytes) : Bytes :=
  let padded := pad message
  (compressBlocks (padded.length / 64) .initial (words padded)).bytes

example : Bytes.hex (hash (Bytes.utf8 "abc")) =
    "ba7816bf8f01cfea414140de5dae2223b00361a396177a9cb410ff61f20015ad" := by
  decide +kernel

end Sha256
