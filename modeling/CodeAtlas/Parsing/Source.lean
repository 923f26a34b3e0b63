import CodeAtlas.Text.Utf8

/-!
# Source texts

A source is a text made ready for reading: its code points in an array, and for each position the
number of octets and of line feeds in front of it.
-/

namespace CodeAtlas.Parsing

/-- A text with the octet and the row of each position. -/
structure Source where
  codes : Array Nat
  /-- For each position up to the end, the octets in front of it. -/
  octets : Array Nat
  /-- For each position up to the end, the line feeds in front of it. -/
  rows : Array Nat
  deriving Inhabited

namespace Source

/-- The source of a text. -/
def ofText (t : Text) : Source :=
  let start : Source := ⟨#[], #[0], #[0]⟩
  (t.foldl (fun (acc : Source × Nat × Nat) c ↦
    let (s, octet, row) := acc
    let octet := octet + Utf8.width c
    let row := if c.val = 0x0A then row + 1 else row
    (⟨s.codes.push c.val, s.octets.push octet, s.rows.push row⟩, octet, row)) (start, 0, 0)).1

/-- The number of code points. -/
def size (s : Source) : Nat := s.codes.size

/-- The code point at a position, 0 at the end. -/
def at? (s : Source) (i : Nat) : Nat := s.codes.getD i 0

/-- The octets between two positions. -/
def octetsBetween (s : Source) (i j : Nat) : Nat := s.octets.getD j 0 - s.octets.getD i 0

/-- The line feeds between two positions. -/
def rowsBetween (s : Source) (i j : Nat) : Nat := s.rows.getD j 0 - s.rows.getD i 0

end Source

end CodeAtlas.Parsing
