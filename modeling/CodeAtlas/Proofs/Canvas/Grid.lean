import CodeAtlas.Canvas.Layout
import Mathlib.Data.List.Forall2
import Mathlib.Data.List.Nodup

/-!
# The grid of the canvas

An index is told by the quotient and the remainder of its division together, whatever the sign of the
divisor, so no two nodes share a place (`cell_injective`). In rows of a positive length the places follow
the order of reading, and a row is full as soon as another one is begun below it (`countP_range_div`).
Main statement: `place_distinct`.
-/

namespace CodeAtlas.Canvas

/-! ### Places -/

/-- One point comes before another one in the order of reading: it is higher up, or further to the left at
the same height. -/
def Point.Before (a b : Point) : Prop := a.y < b.y ∨ a.y = b.y ∧ a.x < b.x

/-- Different indices have different places. -/
theorem cell_injective (perRow : Int) : Function.Injective (cell perRow) := by
  intro i j hcell
  obtain ⟨hx, hy⟩ := Point.mk.inj hcell
  have hcolumn : (i : Int).fmod perRow = (j : Int).fmod perRow := by omega
  have hrow : (i : Int).fdiv perRow = (j : Int).fdiv perRow := by omega
  have hij : (i : Int) = j := by
    calc
      (i : Int) = perRow * (i : Int).fdiv perRow + (i : Int).fmod perRow :=
        (Int.mul_fdiv_add_fmod _ _).symm
      _ = perRow * (j : Int).fdiv perRow + (j : Int).fmod perRow := by rw [hrow, hcolumn]
      _ = j := Int.mul_fdiv_add_fmod _ _
  exact Int.ofNat.inj hij

section

variable {perRow : Nat}

/-- In rows of a positive length, floor division is division of natural numbers. -/
theorem cell_natCast (perRow index : Nat) :
    cell perRow index = ⟨100 + (index % perRow : Nat) * 200, 100 + (index / perRow : Nat) * 150⟩ := by
  rw [cell, Int.fmod_eq_emod_of_nonneg _ (Int.natCast_nonneg perRow),
    Int.fdiv_eq_ediv_of_nonneg _ (Int.natCast_nonneg perRow), Int.natCast_emod, Int.natCast_ediv]

/-- A later index has a later place. -/
theorem cell_before_cell {i j : Nat} (h : i < j) : (cell perRow i).Before (cell perRow j) := by
  have hrow : i / perRow ≤ j / perRow := Nat.div_le_div_right (Nat.le_of_lt h)
  simp only [cell_natCast, Point.Before]
  rcases Nat.lt_or_eq_of_le hrow with hlt | heq
  · exact .inl (by omega)
  · have hi := Nat.div_add_mod i perRow
    have hj := Nat.div_add_mod j perRow
    rw [heq] at hi
    exact .inr ⟨by omega, by omega⟩

/-- A row that ends within the indices is full. -/
theorem countP_range_div {n row : Nat} (hpos : 0 < perRow) (h : (row + 1) * perRow ≤ n) :
    (List.range n).countP (fun i ↦ i / perRow = row) = perRow := by
  rw [Nat.succ_mul] at h
  -- The indices in front of the row, those of the row, and those behind it.
  obtain ⟨rest, rfl⟩ := Nat.exists_eq_add_of_le h
  rw [List.range_add, List.range_add, List.countP_append, List.countP_append]
  have hbefore : (List.range (row * perRow)).countP (fun i ↦ i / perRow = row) = 0 := by
    refine List.countP_eq_zero.2 fun i hi ↦ ?_
    have hlt := List.mem_range.1 hi
    simp only [decide_eq_true_eq, Nat.div_eq_iff hpos]
    omega
  have hrow : ((List.range perRow).map (row * perRow + ·)).countP (fun i ↦ i / perRow = row) =
      perRow := by
    rw [List.countP_eq_length.2, List.length_map, List.length_range]
    intro i hi
    obtain ⟨column, hcolumn, rfl⟩ := List.mem_map.1 hi
    have hlt := List.mem_range.1 hcolumn
    simp only [decide_eq_true_eq, Nat.div_eq_iff hpos]
    omega
  have hbehind : ((List.range rest).map (row * perRow + perRow + ·)).countP
      (fun i ↦ i / perRow = row) = 0 := by
    refine List.countP_eq_zero.2 fun i hi ↦ ?_
    obtain ⟨j, -, rfl⟩ := List.mem_map.1 hi
    simp only [decide_eq_true_eq, Nat.div_eq_iff hpos]
    omega
  omega

end

/-! ### Nodes that have been placed -/

/-- Placing changes nothing but the places. -/
theorem forall₂_placeFrom (perRow : Int) (index : Nat) (ns : List Node) :
    List.Forall₂ (fun n m ↦ m = { n with position := m.position }) ns (placeFrom perRow index ns) := by
  induction ns generalizing index with
  | nil => exact .nil
  | cons n ns ih => exact .cons rfl (ih (index + 1))

/-- The places are those of the indices in turn. -/
theorem map_position_placeFrom (perRow : Int) (index : Nat) (ns : List Node) :
    (placeFrom perRow index ns).map (·.position) =
      (List.range' index ns.length).map (cell perRow) := by
  induction ns generalizing index with
  | nil => rfl
  | cons n ns ih => simp only [placeFrom, List.map_cons, List.length_cons, List.range'_succ, ih]

theorem map_position_placeFrom_zero (perRow : Int) (ns : List Node) :
    (placeFrom perRow 0 ns).map (·.position) = (List.range ns.length).map (cell perRow) := by
  rw [map_position_placeFrom, List.range_eq_range']

/-- Every node that has been placed is at the place of an index. -/
theorem exists_position_eq_cell {perRow : Int} {ns : List Node} {n : Node}
    (h : n ∈ placeFrom perRow 0 ns) : ∃ i < ns.length, n.position = cell perRow i := by
  have hmem : n.position ∈ (placeFrom perRow 0 ns).map (·.position) := List.mem_map_of_mem h
  rw [map_position_placeFrom_zero] at hmem
  obtain ⟨i, hi, hcell⟩ := List.mem_map.1 hmem
  exact ⟨i, List.mem_range.1 hi, hcell.symm⟩

/-- Nodes stand in rows of a length. -/
structure InRows (perRow : Int) (ns : List Node) : Prop where
  /-- The nodes follow the order of reading. -/
  ordered : (ns.map (·.position)).Pairwise Point.Before
  /-- No node is further to the right than a row is long. -/
  within : ∀ n ∈ ns, 100 ≤ n.position.x ∧ n.position.x ≤ 100 + 200 * (perRow - 1)
  /-- A row that has another one below it is full. -/
  full : ∀ n ∈ ns, (∃ m ∈ ns, n.position.y < m.position.y) →
    (ns.countP (·.position.y = n.position.y) : Int) = perRow

/-- In rows of a positive length, nodes are placed row by row. -/
theorem inRows_placeFrom {perRow : Nat} (hpos : 0 < perRow) (ns : List Node) :
    InRows perRow (placeFrom perRow 0 ns) where
  ordered := by
    rw [map_position_placeFrom_zero, List.pairwise_map]
    exact List.pairwise_lt_range.imp cell_before_cell
  within n hn := by
    obtain ⟨i, -, hcell⟩ := exists_position_eq_cell hn
    have hcolumn := Nat.mod_lt i hpos
    rw [hcell, cell_natCast]
    dsimp only
    omega
  full n hn hbelow := by
    obtain ⟨m, hm, hlt⟩ := hbelow
    obtain ⟨i, -, hi⟩ := exists_position_eq_cell hn
    obtain ⟨j, hj, hj'⟩ := exists_position_eq_cell hm
    rw [hi, hj', cell_natCast, cell_natCast] at hlt
    dsimp only at hlt
    have hrow : i / perRow + 1 ≤ j / perRow := by omega
    have hends : (i / perRow + 1) * perRow ≤ ns.length := by
      have hmul : (i / perRow + 1) * perRow ≤ j / perRow * perRow := Nat.mul_le_mul_right perRow hrow
      have hle : j / perRow * perRow ≤ j := Nat.div_mul_le_self j perRow
      omega
    have hcount : (placeFrom perRow 0 ns).countP (·.position.y = n.position.y) =
        (List.range ns.length).countP fun k ↦ k / perRow = i / perRow := by
      calc
        _ = ((placeFrom perRow 0 ns).map (·.position)).countP (·.y = n.position.y) :=
          List.countP_map.symm
        _ = (List.range ns.length).countP fun k ↦ (cell perRow k).y = (cell perRow i).y := by
          rw [map_position_placeFrom_zero, List.countP_map, hi]
          rfl
        _ = _ := by
          refine List.countP_congr fun k _ ↦ ?_
          simp only [cell_natCast, decide_eq_true_eq]
          omega
    rw [hcount, countP_range_div hpos hends]

/-- Nodes are never placed on top of each other. In rows of any length but zero, be it positive or negative,
all nodes are placed in their order, nothing but their places is changed, and no place is taken twice. In
rows of a positive length the nodes stand row by row, and all rows but the last are full. -/
theorem place_distinct {perRow : Int} (h : perRow ≠ 0) (ns : List Node) :
    ∃ placed, place perRow ns = some placed ∧
      List.Forall₂ (fun n m ↦ m = { n with position := m.position }) ns placed ∧
      (placed.map (·.position)).Nodup ∧
      (1 ≤ perRow → InRows perRow placed) := by
  refine ⟨placeFrom perRow 0 ns, place_eq_some h ns, forall₂_placeFrom perRow 0 ns, ?_, ?_⟩
  · rw [map_position_placeFrom_zero]
    exact List.nodup_range.map (cell_injective perRow)
  · intro hpos
    obtain ⟨k, rfl⟩ := Int.eq_ofNat_of_zero_le (Int.le_trans Int.one_nonneg hpos)
    exact inRows_placeFrom (by omega) ns

/-- Five nodes in rows of two, and from right to left in rows of minus two. -/
theorem place_distinct_five :
    let n : Node := default
    let ns := [n, n, n, n, n]
    (2 : Int) ≠ 0 ∧ (-2 : Int) ≠ 0 ∧
      (∃ placed, place 2 ns = some placed ∧ (placed.map (·.position)).Nodup ∧ InRows 2 placed) ∧
      ∃ placed, place (-2) ns = some placed ∧ (placed.map (·.position)).Nodup ∧
        placed.map (·.position) = [⟨100, 100⟩, ⟨-100, -50⟩, ⟨100, -50⟩, ⟨-100, -200⟩, ⟨100, -200⟩] := by
  intro n ns
  have hpositive : (2 : Int) ≠ 0 := by decide
  have hnegative : (-2 : Int) ≠ 0 := by decide
  obtain ⟨placed, hplaced, -, hdistinct, hrows⟩ := place_distinct hpositive ns
  obtain ⟨placed', hplaced', -, hdistinct', -⟩ := place_distinct hnegative ns
  refine ⟨hpositive, hnegative, ⟨placed, hplaced, hdistinct, hrows (by decide)⟩,
    placed', hplaced', hdistinct', ?_⟩
  cases hplaced'
  rfl

end CodeAtlas.Canvas
