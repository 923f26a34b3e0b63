/-!
# Places in a source

A position is a line, counted from one, and a column, counted in octets from zero. Lines end at line
feeds only. `Position.at` finds the position of an octet offset; its law is `Position.at_append_of_le`: what
stands behind the offset has no influence.
-/

namespace CodeAtlas.Syntax

/-- A line and a column. -/
structure Position where
  line : Int
  column : Int
  deriving DecidableEq, Inhabited

/-- From where to where something stands. -/
structure Span where
  start : Position
  stop : Position
  deriving DecidableEq, Inhabited

/-- The octet that ends a line. -/
def lineFeed : UInt8 := 10

/-- How many lines are ended by the given octets. -/
def lineEnds (octets : List UInt8) : Nat := octets.count lineFeed

/-- The octets behind the last line end. -/
def lastLine (octets : List UInt8) : List UInt8 :=
  (octets.reverse.takeWhile (· != lineFeed)).reverse

/-- The position behind the given octets. -/
def Position.after (octets : List UInt8) : Position :=
  ⟨lineEnds octets + 1, (lastLine octets).length⟩

/-- The position of an offset. -/
def Position.at (octets : List UInt8) (offset : Nat) : Position := .after (octets.take offset)

/-- The places from one offset to another. -/
def Span.at (octets : List UInt8) (start stop : Nat) : Span :=
  ⟨.at octets start, .at octets stop⟩

/-- What stands behind an offset has no influence on its position. -/
theorem Position.at_append_of_le {a b : List UInt8} {n : Nat} (h : n ≤ a.length) :
    Position.at (a ++ b) n = Position.at a n := by
  simp [Position.at, List.take_append_of_le_length h]

end CodeAtlas.Syntax
