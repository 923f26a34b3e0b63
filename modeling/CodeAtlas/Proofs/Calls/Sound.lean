import CodeAtlas.Proofs.Calls.Scan
import Mathlib.Data.List.Nodup

/-!
# Every cycle that is found is one

A scan records a part of its path, from the name that is called again to the end. The path is a chain
of calls without repetition, so what is recorded is a simple cycle of the call graph. Main statement:
`simpleCycle_of_mem_cycles`.
-/

namespace CodeAtlas.CallGraph

variable {g : CallGraph}

/-- `Closes c a b` says that a call from `a` to `b` leads from the last name of `c` to the first. -/
def Closes (c : List Text) (a b : Text) : Prop := c.getLast? = some a ∧ c.head? = some b

instance (c : List Text) (a b : Text) : Decidable (Closes c a b) :=
  inferInstanceAs (Decidable (_ ∧ _))

/-- A simple cycle: its names are distinct callers, each of them calls the next one, and the last
one calls the first one. -/
structure SimpleCycle (g : CallGraph) (c : List Text) : Prop where
  ne_nil : c ≠ []
  nodup : c.Nodup
  callers : ∀ x ∈ c, x ∈ g.callers
  chain : c.IsChain g.Calls
  closed : ∀ a b, Closes c a b → g.Calls a b

/-- A name of a chain of calls calls another one, unless it is the last. -/
theorem calls_or_getLast? {c : List Text} (h : c.IsChain g.Calls) {x : Text} (hx : x ∈ c) :
    (∃ y, g.Calls x y) ∨ c.getLast? = some x := by
  induction c with
  | nil => cases hx
  | cons a as ih =>
    cases as with
    | nil => exact .inr (by simp [List.mem_singleton.1 hx])
    | cons b bs =>
      obtain ⟨hab, hbs⟩ := List.isChain_cons_cons.1 h
      rcases List.mem_cons.1 hx with rfl | hx
      · exact .inl ⟨b, hab⟩
      · rw [List.getLast?_cons_cons]
        exact ih hbs hx

/-! ### What is recorded -/

namespace Scan

/-- A path is what comes before a name on it, the name, and the rest. -/
theorem exists_eq_takeWhile_append {path : List Text} {name : Text} (h : name ∈ path) :
    ∃ rest, path = path.takeWhile (· ≠ name) ++ name :: rest := by
  induction path with
  | nil => cases h
  | cons x xs ih =>
    by_cases hx : x = name
    · exact ⟨xs, by simp [hx]⟩
    · obtain ⟨rest, hr⟩ := ih (List.mem_of_ne_of_mem (Ne.symm hx) h)
      refine ⟨rest, ?_⟩
      rw [List.takeWhile_cons_of_pos (by simpa using hx), List.cons_append, ← hr]

/-- The last names of a path, down to a name on it, are a recorded cycle in reverse. -/
theorem reverse_cycleFrom_prefix {path : List Text} {name : Text} (h : name ∈ path) :
    (cycleFrom path name).reverse <+: path := by
  obtain ⟨rest, hr⟩ := exists_eq_takeWhile_append h
  refine ⟨rest, ?_⟩
  rw [cycleFrom, List.reverse_reverse, List.append_assoc]
  exact hr.symm

/-- A recorded cycle begins with the name that is called again. -/
theorem head?_cycleFrom (path : List Text) (name : Text) :
    (cycleFrom path name).head? = some name := by
  simp [cycleFrom]

/-- A recorded cycle ends with the last name of the path. -/
theorem getLast?_cycleFrom {path : List Text} {name : Text} (h : name ∈ path) :
    (cycleFrom path name).getLast? = path.head? := by
  obtain ⟨rest, hr⟩ := reverse_cycleFrom_prefix h
  have hne : (cycleFrom path name).reverse ≠ [] := by simp [cycleFrom]
  have hhead := congrArg List.head? hr
  rw [List.head?_append_of_ne_nil _ hne, List.head?_reverse] at hhead
  exact hhead

/-- The cycle that a call back to a name on the path closes is a simple cycle. -/
theorem Coherent.simpleCycle {s : Scan} (h : s.Coherent g) {top callee : Text}
    (htop : s.path.head? = some top) (hcall : g.Calls top callee) (hmem : callee ∈ s.path) :
    SimpleCycle g (cycleFrom s.path callee) := by
  have hpre := reverse_cycleFrom_prefix hmem
  have hchain : (cycleFrom s.path callee).IsChain g.Calls := by
    rw [← List.reverse_reverse (cycleFrom s.path callee), List.isChain_reverse]
    exact h.chain.prefix hpre
  have hlast : (cycleFrom s.path callee).getLast? = some top := by
    rw [getLast?_cycleFrom hmem, htop]
  refine ⟨by simp [cycleFrom], ?_, ?_, hchain, ?_⟩
  · exact List.nodup_reverse.1 (h.nodup.sublist hpre.sublist)
  · intro x hx
    rcases calls_or_getLast? hchain hx with ⟨y, hy⟩ | hx
    · exact hy.mem_callers
    · rw [hlast] at hx
      cases hx
      exact hcall.mem_callers
  · intro a b hab
    rw [Closes, hlast, head?_cycleFrom] at hab
    cases hab.1
    cases hab.2
    exact hcall

end Scan

/-- What the scan has found are simple cycles. -/
theorem simpleCycle_of_mem_found : ∀ c ∈ g.scan.found, SimpleCycle g c := by
  apply And.left
  apply scan_invariant (P := fun s ↦ ∀ c ∈ s.found, SimpleCycle g c)
  · simp [Scan.start]
  · exact fun s r _ hs _ _ ↦ hs
  · intro s t hc hs hm
    cases hm with
    | leave => exact hs
    | enter => simpa [Scan.enter] using hs
    | skip => simpa using hs
    | record frames begun pathed =>
      intro c hmem
      rw [Scan.record, Scan.advance_path, Scan.advance_found] at hmem
      rcases List.mem_cons.1 hmem with rfl | hmem
      · exact hc.simpleCycle (hc.head?_path frames)
          (hc.calls_of_pending frames (List.mem_cons_self ..)) (hc.onPath_eq ▸ pathed)
      · exact hs c hmem

/-- Every cycle that a scan finds is a simple cycle of the call graph. -/
theorem simpleCycle_of_mem_cycles (g : CallGraph) {c : List Text} (h : c ∈ g.cycles) :
    SimpleCycle g c :=
  simpleCycle_of_mem_found c (List.mem_reverse.1 h)

/-- A cycle that is entered from outside and that repeated calls, a self-call and an unknown name
stand beside. -/
theorem simpleCycle_entered_from_outside :
    let m := Text.ofString "m"
    let f := Text.ofString "f"
    let g := Text.ofString "g"
    let h := Text.ofString "h"
    let calls : CallGraph := [(m, [f, m]), (f, [g, g]), (g, [m, h, g, Text.ofString "?"]), (h, [f])]
    [f, g, h] ∈ calls.cycles ∧ SimpleCycle calls [f, g, h] := by
  intro m f g h calls
  have hrun : Scan.run calls (Scan.start.enter calls m) =
      (Scan.turn calls)^[17] (Scan.start.enter calls m) := by
    apply Scan.run_eq_iterate_turn
    decide +kernel
  have hscan : calls.scan = (Scan.turn calls)^[17] (Scan.start.enter calls m) := by
    rw [← hrun]
    change List.foldl (Scan.scanFrom calls) (Scan.run calls (Scan.start.enter calls m)) [f, g, h] = _
    rw [hrun]
    decide +kernel
  have hmem : [f, g, h] ∈ calls.cycles := by
    rw [cycles, hscan]
    decide +kernel
  exact ⟨hmem, simpleCycle_of_mem_cycles calls hmem⟩

end CodeAtlas.CallGraph
