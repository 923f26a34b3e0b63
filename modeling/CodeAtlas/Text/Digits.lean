import CodeAtlas.Text.Blank

/-!
# Integers in texts

A text stands for an integer if it holds decimal digits of any script, with a sign in front of them and
white space around them, perhaps, and single underscores between digits.
-/

namespace CodeAtlas

namespace CodePoint

/-- The zeros of all scripts; the other nine digits follow each of them in order. -/
def zeros : List Nat :=
  [0x30, 0x660, 0x6F0, 0x7C0, 0x966, 0x9E6, 0xA66, 0xAE6, 0xB66, 0xBE6, 0xC66, 0xCE6, 0xD66, 0xDE6,
    0xE50, 0xED0, 0xF20, 0x1040, 0x1090, 0x17E0, 0x1810, 0x1946, 0x19D0, 0x1A80, 0x1A90, 0x1B50,
    0x1BB0, 0x1C40, 0x1C50, 0xA620, 0xA8D0, 0xA900, 0xA9D0, 0xA9F0, 0xAA50, 0xABF0, 0xFF10, 0x104A0,
    0x10D30, 0x11066, 0x110F0, 0x11136, 0x111D0, 0x112F0, 0x11450, 0x114D0, 0x11650, 0x116C0,
    0x11730, 0x118E0, 0x11950, 0x11C50, 0x11D50, 0x11DA0, 0x16A60, 0x16AC0, 0x16B50, 0x1D7CE,
    0x1D7D8, 0x1D7E2, 0x1D7EC, 0x1D7F6, 0x1E140, 0x1E2F0, 0x1E950, 0x1FBF0]

/-- The value of a decimal digit of any script. -/
def decimal? (c : CodePoint) : Option Nat :=
  zeros.findSome? fun z ↦ if z ≤ c.val && c.val < z + 10 then some (c.val - z) else none

end CodePoint

namespace Text

/-- The values of the digits that follow a digit; `none` if anything but digits and single underscores
between them is there. -/
def moreDigits? : Text → Option (List Nat)
  | [] => some []
  | c :: cs =>
    match c.decimal? with
    | some d => (moreDigits? cs).map (d :: ·)
    | none =>
      if c.val == 0x5F then
        match cs with
        | [] => none
        | e :: es => match e.decimal? with
          | some d => (moreDigits? es).map (d :: ·)
          | none => none
      else none

/-- The values of the digits that a text consists of. -/
def digits? : Text → Option (List Nat)
  | [] => none
  | c :: cs => match c.decimal? with
    | some d => (moreDigits? cs).map (d :: ·)
    | none => none

/-- How many digits an integer may have. -/
def mostDigits : Nat := 4300

/-- The number that a text of digits stands for. -/
def natural? (t : Text) : Option Nat :=
  (digits? t).bind fun ds ↦
    if ds.length ≤ mostDigits then some (ds.foldl (fun n d ↦ 10 * n + d) 0) else none

/-- The integer that a text stands for. -/
def integer? (t : Text) : Option Int :=
  match t.trimWhere CodePoint.isWhiteSpace with
  | [] => none
  | c :: cs =>
    if c.val == 0x2D then (natural? cs).map fun n ↦ -(n : Int)
    else if c.val == 0x2B then (natural? cs).map fun n ↦ (n : Int)
    else (natural? (c :: cs)).map fun n ↦ (n : Int)

end Text

end CodeAtlas
