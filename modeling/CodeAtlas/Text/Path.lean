import CodeAtlas.Text.Basic

/-!
# Paths

A path is a sequence of names under a root or without one. Empty names and single dots are dropped;
double dots are kept, since what they lead to depends on the file system. Two slashes at the start
are a root of their own, three or more are the same as one.
-/

namespace CodeAtlas

/-- A path. -/
structure Path where
  root : Text
  names : List Text
  deriving DecidableEq, Inhabited

namespace Path

/-- A slash. -/
def slash : CodePoint := CodePoint.ofNat 0x2F

/-- The root of a path with so many slashes at its start. -/
def rootOf : Nat → Text
  | 0 => []
  | 2 => [slash, slash]
  | _ => [slash]

/-- Reads a path. -/
def ofText (t : Text) : Path where
  root := rootOf (t.takeWhile (· = slash)).length
  names := (t.splitOn slash).filter fun n ↦ n ≠ [] ∧ n ≠ Text.ofString "."

/-- Writes a path; one without names and without a root is a dot. -/
def toText (p : Path) : Text :=
  if p.root = [] ∧ p.names = [] then Text.ofString "." else p.root ++ [slash].intercalate p.names

/-- A name below a path. -/
def child (p : Path) (name : Text) : Path := { p with names := p.names ++ [name] }

end Path

end CodeAtlas
