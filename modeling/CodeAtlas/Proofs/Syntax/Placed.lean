import CodeAtlas.Proofs.Syntax.Nodes

/-!
# Nodes in their places

`ConcreteNode.placed` lists the nodes of a tree in document order, each with the nodes around it. Its place
tells whether a node is passed over on the way through children: a grouping is, unless it is the root, and
so are the tokens right within it. Main statement: `shown_eq_filter_placed`, all other nodes are shown,
once and in document order.
-/

namespace CodeAtlas.Syntax

/-- A node of a concrete tree in its place. -/
structure Placed where
  node : ConcreteNode
  /-- The nodes around it, the nearest first. -/
  around : List ConcreteNode

namespace Placed

/-- The node right around another one. -/
def parent? (p : Placed) : Option Placed :=
  match p.around with
  | [] => none
  | n :: around => some ⟨n, around⟩

/-- Whether a node is a grouping and not the root. -/
def isInnerGrouping (p : Placed) : Bool := p.node.isGrouping && !p.around.isEmpty

/-- Whether a node is passed over: it is a grouping and not the root, or a token right within such a
grouping. -/
def isPassedOver (p : Placed) : Bool :=
  p.isInnerGrouping || (!p.node.head.named && p.parent?.any isInnerGrouping)

end Placed

namespace ConcreteNode

mutual

/-- The nodes of a tree in their places, each before those below it. -/
def placed (around : List ConcreteNode) : ConcreteNode → List Placed
  | node h cs => ⟨node h cs, around⟩ :: placedAll (node h cs :: around) cs

/-- The nodes of several trees that stand in the same place. -/
def placedAll (around : List ConcreteNode) : List ConcreteNode → List Placed
  | [] => []
  | c :: cs => placed around c ++ placedAll around cs

end

theorem placedAll_eq_flatMap (around cs : List ConcreteNode) :
    placedAll around cs = cs.flatMap (placed around) := by
  induction cs with
  | nil => rfl
  | cons c cs ih => rw [placedAll, ih, List.flatMap_cons]

/-- First comes the node itself, then what is below each of its children. -/
theorem placed_eq (around : List ConcreteNode) (n : ConcreteNode) :
    placed around n = ⟨n, around⟩ :: n.children.flatMap (placed (n :: around)) := by
  cases n with
  | node h cs => rw [placed, placedAll_eq_flatMap, children]

mutual

/-- What is placed are the nodes of the tree in document order. -/
theorem map_node_placed (around : List ConcreteNode) :
    ∀ n, (placed around n).map (·.node) = nodes n
  | node h cs => by
    rw [placed, nodes, List.map_cons, map_node_placedAll]

/-- What is placed of several trees are their nodes in document order. -/
theorem map_node_placedAll (around : List ConcreteNode) :
    ∀ ns, (placedAll around ns).map (·.node) = nodesOfAll ns
  | [] => rfl
  | n :: ns => by
    rw [placedAll, nodesOfAll, List.map_append, map_node_placed, map_node_placedAll]

end

/-! ### Nodes that are kept -/

/-- The nodes of a tree that are not passed over, in document order. -/
def kept (around : List ConcreteNode) (n : ConcreteNode) : List ConcreteNode :=
  ((placed around n).filter (!·.isPassedOver)).map (·.node)

theorem kept_of_isPassedOver {around : List ConcreteNode} {n : ConcreteNode}
    (h : Placed.isPassedOver ⟨n, around⟩ = true) :
    kept around n = n.children.flatMap (kept (n :: around)) := by
  rw [kept, placed_eq, List.filter_cons_of_neg (by simp [h]), List.filter_flatMap, List.map_flatMap]
  rfl

theorem kept_of_not_isPassedOver {around : List ConcreteNode} {n : ConcreteNode}
    (h : Placed.isPassedOver ⟨n, around⟩ = false) :
    kept around n = n :: n.children.flatMap (kept (n :: around)) := by
  rw [kept, placed_eq, List.filter_cons_of_pos (by simp [h]), List.map_cons, List.filter_flatMap,
    List.map_flatMap]
  rfl

/-- Tokens right within a grouping are passed over. -/
theorem flatMap_kept_of_tokens {n : ConcreteNode} {around cs : List ConcreteNode}
    (hn : n.isGrouping = true) (hinner : around ≠ [])
    (htokens : ∀ c ∈ cs, c.head.named = false ∧ c.children = []) :
    cs.flatMap (kept (n :: around)) = [] := by
  refine List.flatMap_eq_nil_iff.2 fun c hc ↦ ?_
  obtain ⟨htoken, hleaf⟩ := htokens c hc
  have hpassed : Placed.isPassedOver ⟨c, n :: around⟩ = true := by
    simp [Placed.isPassedOver, Placed.parent?, Placed.isInnerGrouping, htoken, hn, hinner]
  rw [kept_of_isPassedOver hpassed, hleaf, List.flatMap_nil]

/-- Below the root, what is kept of a node is what is shown of the node that is seen in it, unless it is a
token right within a grouping. -/
theorem kept_eq_shown_seen {n : ConcreteNode} {around : List ConcreteNode} (h : n.TokensAreLeaves)
    (hinner : around ≠ [])
    (hplace : n.head.named = true ∨ (Placed.parent? ⟨n, around⟩).any (·.isInnerGrouping) = false) :
    kept around n = shown (seen n) := by
  by_cases hn : n.isGrouping = true
  · obtain ⟨before, c, after, he⟩ := exists_encloses hn
    have hpassed : Placed.isPassedOver ⟨n, around⟩ = true := by
      simp [Placed.isPassedOver, Placed.isInnerGrouping, hn, hinner]
    have hleaf {a : ConcreteNode} (ha : a ∈ n.children) (htoken : a.head.named = false) :
        a.head.named = false ∧ a.children = [] :=
      ⟨htoken, h.of_mem_children ha a (self_mem_nodes a) htoken⟩
    have hbefore : before.flatMap (kept (n :: around)) = [] :=
      flatMap_kept_of_tokens hn hinner fun a ha ↦ hleaf (by simp [he.children, ha]) (he.before a ha)
    have hafter : after.flatMap (kept (n :: around)) = [] :=
      flatMap_kept_of_tokens hn hinner fun a ha ↦ hleaf (by simp [he.children, ha]) (he.after a ha)
    have hc : kept (n :: around) c = shown (seen c) :=
      kept_eq_shown_seen (h.of_mem_children he.mem) (List.cons_ne_nil n around) (.inl he.named)
    rw [kept_of_isPassedOver hpassed, he.children, List.flatMap_append, List.flatMap_cons, hbefore,
      hafter, List.nil_append, List.append_nil, hc, seen_of_isGrouping hn he]
  · have hn : n.isGrouping = false := Bool.eq_false_iff.2 hn
    have hkept : Placed.isPassedOver ⟨n, around⟩ = false := by
      rcases hplace with hnamed | hparent
      · simp [Placed.isPassedOver, Placed.isInnerGrouping, hn, hnamed]
      · simp [Placed.isPassedOver, Placed.isInnerGrouping, hn, hparent]
    rw [kept_of_not_isPassedOver hkept, seen_of_not_isGrouping hn, shown_eq]
    congr 1
    refine List.flatMap_congr fun c hc ↦ ?_
    exact kept_eq_shown_seen (h.of_mem_children hc) (List.cons_ne_nil n around)
      (.inr (by simp [Placed.parent?, Placed.isInnerGrouping, hn]))
termination_by weight n
decreasing_by
  · exact weight_lt_of_mem_children he.mem
  · exact weight_lt_of_mem_children hc

/-- What is kept of a tree is shown. -/
theorem kept_root {root : ConcreteNode} (h : root.TokensAreLeaves) : kept [] root = shown root := by
  rw [kept_of_not_isPassedOver (by simp [Placed.isPassedOver, Placed.parent?,
    Placed.isInnerGrouping]), shown_eq]
  congr 1
  refine List.flatMap_congr fun c hc ↦ ?_
  exact kept_eq_shown_seen (h.of_mem_children hc) (List.cons_ne_nil root [])
    (.inr (by simp [Placed.parent?, Placed.isInnerGrouping]))

/-- What is seen is no grouping. -/
theorem isGrouping_seen (n : ConcreteNode) : (seen n).isGrouping = false := by
  induction n using seen_induction with
  | plain n hn => rwa [seen_of_not_isGrouping hn]
  | grouping n before c after hn he ih => rwa [seen_of_isGrouping hn he]

/-- Nothing that is shown is a grouping, unless it is the root. -/
theorem isGrouping_of_mem_tail_shown {n : ConcreteNode} :
    ∀ m ∈ (shown n).tail, m.isGrouping = false := by
  induction n using shown.induct with
  | case1 h cs ih =>
    intro m hm
    rw [shown_eq, List.tail_cons, children] at hm
    obtain ⟨c, hc, hm⟩ := List.mem_flatMap.1 hm
    have hseen := ih c hc m
    rw [shown_eq, List.mem_cons] at hm
    rw [shown_eq, List.tail_cons] at hseen
    rcases hm with rfl | hm
    · exact isGrouping_seen c
    · exact hseen hm

/-- The nodes that are reached through children are the nodes of the tree in document order, without the
groupings other than the root and the tokens right within them. No other node is lost, none comes twice
or out of order, and below the root no grouping is reached. So the view has one node for each of them. -/
theorem shown_eq_filter_placed (octets : List UInt8) {root : ConcreteNode}
    (h : root.TokensAreLeaves) :
    (placed [] root).map (·.node) = root.nodes ∧
      shown root = ((placed [] root).filter (!·.isPassedOver)).map (·.node) ∧
      (root.view octets).heads =
        ((placed [] root).filter (!·.isPassedOver)).map (fun p ↦ viewHead octets p.node) ∧
      ∀ n ∈ (shown root).tail, n.isGrouping = false := by
  have hkept : ((placed [] root).filter (!·.isPassedOver)).map (·.node) = shown root := kept_root h
  refine ⟨map_node_placed [] root, hkept.symm, ?_, isGrouping_of_mem_tail_shown⟩
  rw [heads_view, ← hkept, List.map_map]
  rfl

/-- A name in two pairs of parentheses is shown without them; parentheses around a comment and a name are
shown, with what is written in them. -/
theorem shown_eq_filter_placed_nested :
    let inner := branch "parenthesized_expression" 1 4 none
      [token "(" 1 2, branch "identifier" 2 3 none [], token ")" 3 4]
    let outer := branch "parenthesized_expression" 0 5 none [token "(" 0 1, inner, token ")" 4 5]
    let commented := branch "parenthesized_expression" 6 14 none
      [token "(" 6 7, branch "comment" 7 11 none [], branch "identifier" 12 13 none [],
        token ")" 13 14]
    let root := branch "program" 0 14 none [outer, commented]
    root.TokensAreLeaves ∧
      (shown root).map (fun n ↦ (n.head.start, n.head.stop)) =
        [(0, 14), (2, 3), (6, 14), (6, 7), (7, 11), (12, 13), (13, 14)] ∧
      ∀ n ∈ (shown root).tail, n.isGrouping = false := by
  intro inner outer commented root
  have hleaves : root.TokensAreLeaves := by decide +kernel
  obtain ⟨-, hshown, -, hgrouping⟩ := shown_eq_filter_placed [] hleaves
  refine ⟨hleaves, ?_, hgrouping⟩
  rw [hshown]
  decide +kernel

end ConcreteNode

end CodeAtlas.Syntax
