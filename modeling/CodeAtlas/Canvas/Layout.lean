import CodeAtlas.Canvas.Basic

/-!
# Placing nodes

Nodes are placed from left to right in rows of equal length. The row and the place in the row are the
quotient and the remainder of a floor division, so a negative length places upwards from right to
left. Rows of length zero can hold no node. Main statement: `placeFrom_map_id`, placing changes neither
the nodes nor their order.
-/

namespace CodeAtlas.Canvas

/-- The length of a row unless it is given. -/
def nodesPerRow : Int := 4

/-- The place of the node with an index in rows of the given length. -/
def cell (perRow : Int) (index : Nat) : Point where
  x := 100 + (index : Int).fmod perRow * 200
  y := 100 + (index : Int).fdiv perRow * 150

/-- Places nodes from the given index on. -/
def placeFrom (perRow : Int) (index : Nat) : List Node → List Node
  | [] => []
  | n :: ns => { n with position := cell perRow index } :: placeFrom perRow (index + 1) ns

/-- Places nodes in rows; `none` if there are nodes and the rows have no length. -/
def place (perRow : Int) (ns : List Node) : Option (List Node) :=
  if perRow = 0 ∧ ns ≠ [] then none else some (placeFrom perRow 0 ns)

/-- Placing changes neither the nodes nor their order. -/
theorem placeFrom_map_id (perRow : Int) (index : Nat) (ns : List Node) :
    (placeFrom perRow index ns).map (·.id) = ns.map (·.id) := by
  induction ns generalizing index with
  | nil => rfl
  | cons n ns ih => simp [placeFrom, ih]

/-- Rows that have a length hold all nodes. -/
theorem place_eq_some {perRow : Int} (h : perRow ≠ 0) (ns : List Node) :
    place perRow ns = some (placeFrom perRow 0 ns) := if_neg fun hp ↦ h hp.1

end CodeAtlas.Canvas
