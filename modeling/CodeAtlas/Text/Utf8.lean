import CodeAtlas.Text.Basic

/-!
# UTF-8

`Utf8.encode` writes every code point in its shortest generalized form, surrogates in three octets
like their neighbours, so no text is refused. `Utf8.decode` reads octets and puts one U+FFFD in the
place of each maximal part that no well-formed sequence continues.
-/

namespace CodeAtlas.Utf8

/-- The octets of one code point. -/
def encodePoint (c : CodePoint) : List UInt8 :=
  let n := c.val
  if n < 0x80 then [n.toUInt8]
  else if n < 0x800 then [(0xC0 + n / 0x40).toUInt8, (0x80 + n % 0x40).toUInt8]
  else if n < 0x10000 then
    [(0xE0 + n / 0x1000).toUInt8, (0x80 + n / 0x40 % 0x40).toUInt8, (0x80 + n % 0x40).toUInt8]
  else
    [(0xF0 + n / 0x40000).toUInt8, (0x80 + n / 0x1000 % 0x40).toUInt8,
      (0x80 + n / 0x40 % 0x40).toUInt8, (0x80 + n % 0x40).toUInt8]

/-- The octets of a text. -/
def encode (t : Text) : List UInt8 := t.flatMap encodePoint

/-- How many octets a code point takes. -/
def width (c : CodePoint) : Nat :=
  if c.val < 0x80 then 1 else if c.val < 0x800 then 2 else if c.val < 0x10000 then 3 else 4

/-- The width of a code point counts its octets. -/
theorem length_encodePoint (c : CodePoint) : (encodePoint c).length = width c := by
  simp only [encodePoint, width]
  split
  · rfl
  · split
    · rfl
    · split <;> rfl

/-- How many octets a text takes. -/
def size (t : Text) : Nat := t.foldl (fun n c ↦ n + width c) 0

/-- A sequence that has been begun: the bits so far, how many octets are missing, and the bounds of
the next octet. -/
structure Pending where
  bits : Nat
  missing : Nat
  lower : Nat
  upper : Nat

/-- What the first octet of a sequence says: a whole code point, a sequence to be continued, or
nothing that is well formed. -/
inductive Opening where
  | whole (c : CodePoint)
  | begun (p : Pending)
  | malformed

/-- Reads an octet as the first of a sequence. The bounds of the second octet exclude long forms,
surrogates and numbers past U+10FFFF. -/
def opening (b : UInt8) : Opening :=
  let n := b.toNat
  if n < 0x80 then .whole (CodePoint.ofNat n)
  else if n < 0xC2 then .malformed
  else if n < 0xE0 then .begun ⟨n - 0xC0, 1, 0x80, 0xBF⟩
  else if n < 0xF0 then
    .begun ⟨n - 0xE0, 2, if n = 0xE0 then 0xA0 else 0x80, if n = 0xED then 0x9F else 0xBF⟩
  else if n < 0xF5 then
    .begun ⟨n - 0xF0, 3, if n = 0xF0 then 0x90 else 0x80, if n = 0xF4 then 0x8F else 0xBF⟩
  else .malformed

/-- Decodes the octets that follow a possibly begun sequence. An octet that does not continue it
ends a malformed part and is read again as a first octet. -/
def decodeAfter : Option Pending → List UInt8 → Text
  | none, [] => []
  | some _, [] => [CodePoint.replacement]
  | none, b :: bs =>
    match opening b with
    | .whole c => c :: decodeAfter none bs
    | .begun p => decodeAfter (some p) bs
    | .malformed => CodePoint.replacement :: decodeAfter none bs
  | some p, b :: bs =>
    let n := b.toNat
    if p.lower ≤ n && n ≤ p.upper then
      let bits := p.bits * 0x40 + (n - 0x80)
      if p.missing ≤ 1 then CodePoint.ofNat bits :: decodeAfter none bs
      else decodeAfter (some ⟨bits, p.missing - 1, 0x80, 0xBF⟩) bs
    else
      match opening b with
      | .whole c => CodePoint.replacement :: c :: decodeAfter none bs
      | .begun q => CodePoint.replacement :: decodeAfter (some q) bs
      | .malformed => CodePoint.replacement :: CodePoint.replacement :: decodeAfter none bs

/-- The text of a sequence of octets, with U+FFFD for each malformed part. -/
def decode (bs : List UInt8) : Text := decodeAfter none bs

/-- Why a strict reader refuses octets. -/
inductive Refusal where
  /-- An octet that can begin no sequence. -/
  | invalidStart
  /-- An octet that does not continue the sequence in front of it. -/
  | invalidContinuation
  /-- The octets end inside a sequence. -/
  | unexpectedEnd
  deriving DecidableEq, Repr

namespace Refusal

/-- A refusal in words. -/
def message : Refusal → String
  | invalidStart => "invalid start byte"
  | invalidContinuation => "invalid continuation byte"
  | unexpectedEnd => "unexpected end of data"

end Refusal

/-- Where and why octets are malformed: the first octet of the malformed part, that octet's
position, the position after the part, and the reason. -/
structure Malformed where
  octet : UInt8
  start : Nat
  stop : Nat
  reason : Refusal
  deriving DecidableEq, Repr

namespace Malformed

/-- A malformed part in words. A part of one octet is shown, a longer one is located. -/
def message (m : Malformed) : Text :=
  let whereabouts :=
    if m.stop = m.start + 1 then
      Text.ofString "byte 0x" ++ Text.hexDigits 2 m.octet.toNat ++ Text.ofString " in position " ++
        Text.ofNat m.start
    else
      Text.ofString "bytes in position " ++ Text.ofNat m.start ++ Text.ofString "-" ++
        Text.ofNat (m.stop - 1)
  Text.ofString "'utf-8' codec can't decode " ++ whereabouts ++ Text.ofString ": " ++
    Text.ofString m.reason.message

end Malformed

/-- Decodes octets strictly, from position `pos` on, after a sequence begun at the given octet and
position. -/
def decodeStrictFrom : Option (Pending × UInt8 × Nat) → Nat → List UInt8 → Except Malformed Text
  | none, _, [] => .ok []
  | some (_, b0, start), pos, [] => .error ⟨b0, start, pos, .unexpectedEnd⟩
  | none, pos, b :: bs =>
    match opening b with
    | .whole c => (decodeStrictFrom none (pos + 1) bs).map (c :: ·)
    | .begun p => decodeStrictFrom (some (p, b, pos)) (pos + 1) bs
    | .malformed => .error ⟨b, pos, pos + 1, .invalidStart⟩
  | some (p, b0, start), pos, b :: bs =>
    let n := b.toNat
    if p.lower ≤ n && n ≤ p.upper then
      let bits := p.bits * 0x40 + (n - 0x80)
      if p.missing ≤ 1 then (decodeStrictFrom none (pos + 1) bs).map (CodePoint.ofNat bits :: ·)
      else decodeStrictFrom (some (⟨bits, p.missing - 1, 0x80, 0xBF⟩, b0, start)) (pos + 1) bs
    else .error ⟨b0, start, pos, .invalidContinuation⟩

/-- The text of well-formed octets, or the first malformed part. -/
def decodeStrict (bs : List UInt8) : Except Malformed Text := decodeStrictFrom none 0 bs

/-- The first run of surrogates in a text that cannot be encoded strictly. -/
structure Unencodable where
  first : CodePoint
  start : Nat
  stop : Nat
  deriving DecidableEq

namespace Unencodable

/-- A run of surrogates in words. A single one is shown, a longer run is located. -/
def message (u : Unencodable) : Text :=
  let whereabouts :=
    if u.stop = u.start + 1 then
      Text.ofString "character '\\u" ++ Text.hexDigits 4 u.first.val ++
        Text.ofString "' in position " ++ Text.ofNat u.start
    else
      Text.ofString "characters in position " ++ Text.ofNat u.start ++ Text.ofString "-" ++
        Text.ofNat (u.stop - 1)
  Text.ofString "'utf-8' codec can't encode " ++ whereabouts ++
    Text.ofString ": surrogates not allowed"

end Unencodable

/-- The octets of a text without surrogates. -/
def encodeStrict (t : Text) : Except Unencodable (List UInt8) :=
  match t.firstSurrogates? with
  | none => .ok (encode t)
  | some (start, stop) => .error ⟨t.getD start CodePoint.replacement, start, stop⟩

end CodeAtlas.Utf8
