/-!
# Texts as sequences of code points

A text is a list of code points. Surrogate code points are admitted, so that a text which arrived
with an unpaired surrogate is kept as it is; `Text.firstSurrogates?` finds the first run of them.
The main statement is `ofString_inj`: different strings make different texts.
-/

namespace CodeAtlas

/-- A Unicode code point, surrogates included. -/
structure CodePoint where
  /-- The number of the code point. -/
  val : Nat
  /-- Code points end at U+10FFFF. -/
  isLt : val < 0x110000
  deriving DecidableEq

/-- A sequence of code points. -/
abbrev Text := List CodePoint

namespace CodePoint

instance : Inhabited CodePoint := ⟨⟨0, by decide⟩⟩

instance : Hashable CodePoint := ⟨fun c ↦ hash c.val⟩

/-- The code point of a character. -/
def ofChar (c : Char) : CodePoint :=
  ⟨c.toNat, by
    have h := c.valid
    simp only [UInt32.isValidChar, Nat.isValidChar] at h
    show c.val.toNat < 0x110000
    omega⟩

/-- The code point of a number below 2^20 + 2^16, and U+FFFD for any other number. -/
def ofNat (n : Nat) : CodePoint :=
  if h : n < 0x110000 then ⟨n, h⟩ else ⟨0xFFFD, by decide⟩

/-- What stands for a malformed part of an encoded text. -/
def replacement : CodePoint := ⟨0xFFFD, by decide⟩

/-- Surrogates are the code points that no encoding form gives a meaning of their own. -/
def isSurrogate (c : CodePoint) : Bool := 0xD800 ≤ c.val && c.val ≤ 0xDFFF

/-- The character of a code point; a surrogate, which has none, is shown as U+FFFD. -/
def toChar (c : CodePoint) : Char := if c.isSurrogate then Char.ofNat 0xFFFD else Char.ofNat c.val

/-- `c.isDigit` says that `c` is one of the ten ASCII digits. -/
def isDigit (c : CodePoint) : Bool := 0x30 ≤ c.val && c.val ≤ 0x39

/-- Two code points with the same number are the same. -/
theorem ext {a b : CodePoint} (h : a.val = b.val) : a = b := by
  cases a; cases b; cases h; rfl

/-- A number in range is the number of its code point. -/
theorem val_ofNat {n : Nat} (h : n < 0x110000) : (ofNat n).val = n := by
  simp [ofNat, h]

/-- Different characters have different code points. -/
theorem ofChar_inj {c d : Char} : ofChar c = ofChar d ↔ c = d := by
  refine ⟨fun h ↦ ?_, congrArg ofChar⟩
  exact Char.toNat_inj.1 (congrArg val h)

/-- No character is a surrogate. -/
theorem isSurrogate_ofChar (c : Char) : (ofChar c).isSurrogate = false := by
  have h := c.valid
  simp only [UInt32.isValidChar, Nat.isValidChar] at h
  have e : (ofChar c).val = c.val.toNat := rfl
  simp only [isSurrogate, e, Bool.and_eq_false_iff, decide_eq_false_iff_not]
  omega

end CodePoint

namespace Text

/-- The text of a string. -/
def ofString (s : String) : Text := s.toList.map CodePoint.ofChar

instance : Coe String Text := ⟨ofString⟩

/-- The string of a text, with U+FFFD for each surrogate. -/
def toString (t : Text) : String := String.ofList (t.map CodePoint.toChar)

/-- Different strings are different texts. -/
theorem ofString_inj {s t : String} : ofString s = ofString t ↔ s = t := by
  refine ⟨fun h ↦ ?_, congrArg ofString⟩
  exact String.toList_inj.1 (List.map_inj_right (fun _ _ hc ↦ CodePoint.ofChar_inj.1 hc) |>.1 h)

/-- Where the first run of surrogates stands: the position of its first member and the position
after its last one; `none` for a text without surrogates. -/
def firstSurrogates? (t : Text) : Option (Nat × Nat) :=
  let before := t.takeWhile (fun c ↦ !c.isSurrogate)
  match t.dropWhile (fun c ↦ !c.isSurrogate) with
  | [] => none
  | rest => some (before.length, before.length + (rest.takeWhile CodePoint.isSurrogate).length)

/-- A text can be written in a strict encoding exactly when it holds no surrogate. -/
def isScalar (t : Text) : Bool := t.all (fun c ↦ !c.isSurrogate)

/-- Decimal digits of a natural number. -/
def ofNat (n : Nat) : Text := ofString (Nat.repr n)

/-- Different numbers have different digits. -/
theorem ofNat_inj {m n : Nat} : ofNat m = ofNat n ↔ m = n := by
  refine ⟨fun h ↦ ?_, congrArg ofNat⟩
  have hdigits : Nat.toDigits 10 m = Nat.toDigits 10 n := by
    rw [← Nat.toList_repr, ← Nat.toList_repr]
    exact List.map_inj_right (fun _ _ hc ↦ CodePoint.ofChar_inj.1 hc) |>.1 h
  calc
    m = Nat.ofDigitChars 10 (Nat.toDigits 10 m) 0 :=
      (Nat.ofDigitChars_toDigits (by decide) (by decide)).symm
    _ = Nat.ofDigitChars 10 (Nat.toDigits 10 n) 0 := by rw [hdigits]
    _ = n := Nat.ofDigitChars_toDigits (by decide) (by decide)

/-- A number is written with nothing but digits. -/
theorem isDigit_of_mem_ofNat {n : Nat} {c : CodePoint} (h : c ∈ ofNat n) : c.isDigit = true := by
  obtain ⟨d, hd, rfl⟩ := List.mem_map.1 h
  rw [Nat.toList_repr] at hd
  have hdigit := Char.isDigit_iff_toNat.1 (Nat.isDigit_of_mem_toDigits (by decide) (by decide) hd)
  rw [CodePoint.isDigit, Bool.and_eq_true, decide_eq_true_iff, decide_eq_true_iff]
  exact hdigit

/-- Decimal digits of an integer, with a minus sign in front of a negative one. -/
def ofInt : Int → Text
  | .ofNat n => ofNat n
  | .negSucc n => ofString "-" ++ ofNat (n + 1)

/-- A digit of a number in base sixteen, in lower case. -/
def hexDigit (n : Nat) : CodePoint :=
  if n < 10 then CodePoint.ofNat (0x30 + n) else CodePoint.ofNat (0x57 + n % 16)

/-- The last `width` digits of a number in base sixteen. -/
def hexDigits : Nat → Nat → Text
  | 0, _ => []
  | width + 1, n => hexDigits width (n / 16) ++ [hexDigit (n % 16)]

/-- As many digits are written as are asked for. -/
theorem length_hexDigits (width n : Nat) : (hexDigits width n).length = width := by
  induction width generalizing n with
  | zero => rfl
  | succ w ih => simp [hexDigits, ih]

/-- Whether `p` stands at the start of `t`. -/
def startsWith (t p : Text) : Bool := p.isPrefixOf t

end Text

end CodeAtlas
