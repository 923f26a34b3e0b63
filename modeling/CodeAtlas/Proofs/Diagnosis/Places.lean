import CodeAtlas.Proofs.Diagnosis.Faults
import CodeAtlas.Proofs.Syntax.Location

/-!
# Where diagnostics point to

A diagnostic points to the start of a node, which is given as an offset in octets; the line that is shown
with it is cut out of the code points of the source. If the nodes of a tree begin within the source, every
diagnostic points to one of its lines and shows it, and the diagnostics come in the order of the source if
the nodes do. Main statement: `located_ofTree`.
-/

namespace CodeAtlas

open Syntax

namespace CodePoint

/-- The carriage return. -/
def carriageReturn : CodePoint := ofNat 0x0D

end CodePoint

open CodePoint (carriageReturn)

namespace Diagnosis

/-- A diagnostic points to a line of a source, which it shows without one carriage return at its end, and
to an octet of that line or behind the last one. -/
structure PointsTo (source line : Text) (d : Diagnostic) : Prop where
  first_le : 1 ≤ d.line
  le_last : d.line ≤ (source.splitOn CodePoint.lineFeed).length
  getElem? : (source.splitOn CodePoint.lineFeed)[d.line.toNat - 1]? = some line
  shown : line = d.lineText ++ [carriageReturn] ∨
    line = d.lineText ∧ line.getLast? ≠ some carriageReturn
  column_nonneg : 0 ≤ d.column
  column_le : d.column ≤ (Utf8.encode line).length

/-- The carriage return that is left out of a line stood at its end. -/
theorem withoutReturn_cases (line : Text) :
    line = withoutReturn line ++ [carriageReturn] ∨
      line = withoutReturn line ∧ line.getLast? ≠ some carriageReturn := by
  unfold withoutReturn
  split
  next hlast => exact .inl (List.dropLast_append_getLast? _ hlast).symm
  next hlast => exact .inr ⟨rfl, hlast⟩

/-- At a node that begins within the source a diagnostic points to one of its lines. -/
theorem pointsTo_atNode {source : Text} {n : ConcreteNode}
    (h : n.head.start ≤ (Utf8.encode source).length) (cause : Cause) :
    ∃ line, PointsTo source line (atNode source n cause) := by
  have hjoin : [CodePoint.lineFeed].intercalate (source.splitOn CodePoint.lineFeed) = source :=
    List.intercalate_splitOn CodePoint.lineFeed
  obtain ⟨i, column, line, hline, hcolumn, hat⟩ :=
    Position.exists_line_at (List.splitOn_ne_nil CodePoint.lineFeed source)
      (fun _ ↦ Text.notMem_of_mem_splitOn) (hjoin.symm ▸ h)
  rw [hjoin] at hat
  have hi : i < (source.splitOn CodePoint.lineFeed).length := (List.getElem?_eq_some_iff.1 hline).1
  have hnumber : (atNode source n cause).line = i + 1 := congrArg Position.line hat
  have hplace : (atNode source n cause).column = column := congrArg Position.column hat
  have hindex : (atNode source n cause).line.toNat - 1 = i := by omega
  have hshown : (atNode source n cause).lineText = withoutReturn line := by
    have hlines : (linesOf source)[i]? = some (withoutReturn line) := by
      rw [linesOf, List.getElem?_map]
      exact congrArg (Option.map withoutReturn) hline
    have hpositive : 0 < (n.span (Utf8.encode source)).start.line := by
      show 0 < (atNode source n cause).line
      omega
    calc
      (atNode source n cause).lineText
        = (linesOf source).getD ((atNode source n cause).line.toNat - 1) [] := if_pos hpositive
      _ = withoutReturn line := by
        rw [hindex, List.getD_eq_getElem?_getD, hlines, Option.getD_some]
  exact ⟨line, {
    first_le := by omega
    le_last := by omega
    getElem? := by rw [hindex, hline]
    shown := by
      rw [hshown]
      exact withoutReturn_cases line
    column_nonneg := by omega
    column_le := by omega }⟩

/-- Every diagnostic stands at the start of a node, and they come in the order of the nodes. -/
theorem exists_map_atNode (source : Text) (root : ConcreteNode) :
    ∃ (ns : List ConcreteNode) (cause : ConcreteNode → Cause), ns.Sublist root.nodes ∧
      ofTree source root = ns.map fun n ↦ atNode source n (cause n) := by
  by_cases h : faults limit [root] = []
  · exact ⟨[root], fun _ ↦ .unexplained, List.singleton_sublist.2 root.self_mem_nodes,
      ofTree_of_faults_eq_nil source h⟩
  · exact ⟨faults limit [root], causeOf source, faults_root_sublist limit root,
      ofTree_of_faults_ne_nil source h⟩

/-- If the nodes of a tree begin within the source, every diagnostic points to a line of it and to a
place in that line. If later nodes do not begin before earlier ones, the places do not go back either. -/
theorem located_ofTree {source : Text} {root : ConcreteNode}
    (hwithin : ∀ n ∈ root.nodes, n.head.start ≤ (Utf8.encode source).length) :
    (∀ d ∈ ofTree source root, ∃ line, PointsTo source line d) ∧
      (root.nodes.Pairwise (fun a b ↦ a.head.start ≤ b.head.start) →
        (ofTree source root).Pairwise fun d d' ↦
          toLex (d.line, d.column) ≤ toLex (d'.line, d'.column)) := by
  obtain ⟨ns, cause, hsub, hmap⟩ := exists_map_atNode source root
  rw [hmap]
  refine ⟨fun d hd ↦ ?_, fun hsorted ↦ ?_⟩
  · obtain ⟨n, hn, rfl⟩ := List.mem_map.1 hd
    exact pointsTo_atNode (hwithin n (hsub.subset hn)) (cause n)
  · rw [List.pairwise_map]
    exact (hsorted.sublist hsub).imp fun h ↦ Position.at_le_at (Utf8.encode source) h

/-- What could not be read begins inside a character of a line that ends in a carriage return, and a token
is missing at the end of the source, behind a line separator, which ends no line. -/
theorem located_ofTree_inside_character :
    let source := Text.ofString "é\r\nx\u2028"
    let leaf (kind : String) (start : Nat) (missing : Bool) : ConcreteNode :=
      .node ⟨Text.ofString kind, start, start, true, missing, false, none⟩ []
    let root : ConcreteNode := .node ⟨Text.ofString "program", 0, 8, true, false, false, none⟩
      [leaf "ERROR" 1 false, leaf ";" 8 true]
    (ofTree source root).map (fun d ↦ (d.line, d.column, d.lineText)) =
        [(1, 1, Text.ofString "é"), (2, 4, Text.ofString "x\u2028")] ∧
      (∀ d ∈ ofTree source root, ∃ line, PointsTo source line d) ∧
      (ofTree source root).Pairwise fun d d' ↦
        toLex (d.line, d.column) ≤ toLex (d'.line, d'.column) := by
  intro source leaf root
  have hwithin : ∀ n ∈ root.nodes, n.head.start ≤ (Utf8.encode source).length := by decide
  have hsorted : root.nodes.Pairwise fun a b ↦ a.head.start ≤ b.head.start := by decide
  obtain ⟨hlocated, horder⟩ := located_ofTree hwithin
  refine ⟨?_, hlocated, horder hsorted⟩
  rw [ofTree, faults_root]
  decide

end Diagnosis

end CodeAtlas
