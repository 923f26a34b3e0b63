import CodeAtlas.Text.Utf8

/-!
# Digests

The SHA-256 function over octets, as FIPS 180-4 gives it, and the digest of a text: the function
applied to the octets of the text, written in base sixteen. Surrogates are encoded like any other code
point, so that different texts have different octets.
-/

namespace CodeAtlas.Digest

/-- The first 32 bits of the fractional parts of the cube roots of the first 64 primes. -/
def roundConstants : Array UInt32 := #[
  0x428a2f98, 0x71374491, 0xb5c0fbcf, 0xe9b5dba5, 0x3956c25b, 0x59f111f1, 0x923f82a4, 0xab1c5ed5,
  0xd807aa98, 0x12835b01, 0x243185be, 0x550c7dc3, 0x72be5d74, 0x80deb1fe, 0x9bdc06a7, 0xc19bf174,
  0xe49b69c1, 0xefbe4786, 0x0fc19dc6, 0x240ca1cc, 0x2de92c6f, 0x4a7484aa, 0x5cb0a9dc, 0x76f988da,
  0x983e5152, 0xa831c66d, 0xb00327c8, 0xbf597fc7, 0xc6e00bf3, 0xd5a79147, 0x06ca6351, 0x14292967,
  0x27b70a85, 0x2e1b2138, 0x4d2c6dfc, 0x53380d13, 0x650a7354, 0x766a0abb, 0x81c2c92e, 0x92722c85,
  0xa2bfe8a1, 0xa81a664b, 0xc24b8b70, 0xc76c51a3, 0xd192e819, 0xd6990624, 0xf40e3585, 0x106aa070,
  0x19a4c116, 0x1e376c08, 0x2748774c, 0x34b0bcb5, 0x391c0cb3, 0x4ed8aa4a, 0x5b9cca4f, 0x682e6ff3,
  0x748f82ee, 0x78a5636f, 0x84c87814, 0x8cc70208, 0x90befffa, 0xa4506ceb, 0xbef9a3f7, 0xc67178f2]

/-- The eight words of the chaining state. -/
structure State where
  a : UInt32
  b : UInt32
  c : UInt32
  d : UInt32
  e : UInt32
  f : UInt32
  g : UInt32
  h : UInt32

namespace State

/-- The first 32 bits of the fractional parts of the square roots of the first eight primes. -/
def initial : State :=
  ⟨0x6a09e667, 0xbb67ae85, 0x3c6ef372, 0xa54ff53a, 0x510e527f, 0x9b05688c, 0x1f83d9ab, 0x5be0cd19⟩

/-- Adds two states word by word. -/
def add (s t : State) : State :=
  ⟨s.a + t.a, s.b + t.b, s.c + t.c, s.d + t.d, s.e + t.e, s.f + t.f, s.g + t.g, s.h + t.h⟩

/-- The words of a state in order. -/
def words (s : State) : List UInt32 := [s.a, s.b, s.c, s.d, s.e, s.f, s.g, s.h]

end State

/-- Rotates a word to the right. -/
def rotate (x : UInt32) (n : UInt32) : UInt32 := (x >>> n) ||| (x <<< (32 - n))

/-- The word of four octets, the first one highest. -/
def wordOf : List UInt8 → List UInt32
  | a :: b :: c :: d :: rest =>
    ((a.toUInt32 <<< 24) ||| (b.toUInt32 <<< 16) ||| (c.toUInt32 <<< 8) ||| d.toUInt32) :: wordOf rest
  | _ => []

/-- The last octets of a number, the highest first. -/
def bigEndian : Nat → Nat → List UInt8
  | 0, _ => []
  | width + 1, n => bigEndian width (n / 256) ++ [(n % 256).toUInt8]

/-- Fills octets up to whole blocks: a one bit, zero bits, and the length in bits. -/
def pad (octets : List UInt8) : List UInt8 :=
  let n := octets.length
  octets ++ [0x80] ++ List.replicate ((119 - n % 64) % 64) 0 ++ bigEndian 8 (8 * n)

/-- The 64 words that the rounds of a block take, made from its 16 words. -/
def schedule (block : Array UInt32) : Array UInt32 :=
  (List.range 48).foldl (fun w i ↦
    let x := w.getD (i + 1) 0
    let y := w.getD (i + 14) 0
    let s₀ := rotate x 7 ^^^ rotate x 18 ^^^ (x >>> 3)
    let s₁ := rotate y 17 ^^^ rotate y 19 ^^^ (y >>> 10)
    w.push (w.getD i 0 + s₀ + w.getD (i + 9) 0 + s₁)) block

/-- One round. -/
def round (s : State) (k w : UInt32) : State :=
  let s₁ := rotate s.e 6 ^^^ rotate s.e 11 ^^^ rotate s.e 25
  let ch := (s.e &&& s.f) ^^^ ((~~~ s.e) &&& s.g)
  let t₁ := s.h + s₁ + ch + k + w
  let s₀ := rotate s.a 2 ^^^ rotate s.a 13 ^^^ rotate s.a 22
  let maj := (s.a &&& s.b) ^^^ (s.a &&& s.c) ^^^ (s.b &&& s.c)
  ⟨t₁ + (s₀ + maj), s.a, s.b, s.c, s.d + t₁, s.e, s.f, s.g⟩

/-- Takes one block into the state. -/
def compress (s : State) (block : List UInt32) : State :=
  let w := schedule block.toArray
  s.add ((List.range 64).foldl (fun t i ↦ round t (roundConstants.getD i 0) (w.getD i 0)) s)

/-- Takes blocks of 16 words into the state. -/
def compressAll (s : State) (words : List UInt32) : State :=
  if words.length < 16 then s else compressAll (compress s (words.take 16)) (words.drop 16)
termination_by words.length
decreasing_by simp only [List.length_drop]; omega

/-- The 32 octets of the digest. -/
def sha256 (octets : List UInt8) : List UInt8 :=
  (compressAll State.initial (wordOf (pad octets))).words.flatMap fun w ↦ bigEndian 4 w.toNat

/-- A digest is written with two digits for each octet. -/
def written (octets : List UInt8) : Text := octets.flatMap fun b ↦ Text.hexDigits 2 b.toNat

/-- The digest of a text. -/
def ofText (t : Text) : Text := written (sha256 (Utf8.encode t))

end CodeAtlas.Digest
