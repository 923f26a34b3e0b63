import CodeAtlas.Syntax.View
import Mathlib.Data.List.Basic

/-!
# The nodes that a view shows

`ConcreteNode.nodes` lists the nodes of a concrete tree in document order, `ConcreteNode.shown` those
that are reached through children when grouping parentheses are seen through. A grouping holds one
named node and otherwise tokens (`Encloses`), and by `seen_induction` what is seen is reached from one
such node to the next. Main statements: `heads_view`, a view has the heads of the nodes that are shown,
and `filter_shown`, nothing but groupings and tokens is passed over.
-/

namespace CodeAtlas.Syntax.ConcreteNode

mutual

/-- The nodes of a tree in document order, each before those below it. -/
def nodes : ConcreteNode → List ConcreteNode
  | node h cs => node h cs :: nodesOfAll cs

/-- The nodes of several trees. -/
def nodesOfAll : List ConcreteNode → List ConcreteNode
  | [] => []
  | c :: cs => nodes c ++ nodesOfAll cs

end

theorem nodesOfAll_eq_flatMap (cs : List ConcreteNode) : nodesOfAll cs = cs.flatMap nodes := by
  induction cs with
  | nil => rfl
  | cons c cs ih => rw [nodesOfAll, ih, List.flatMap_cons]

/-- First comes the node itself, then what is below each of its children. -/
theorem nodes_eq (n : ConcreteNode) : n.nodes = n :: n.children.flatMap nodes := by
  cases n with
  | node h cs => rw [nodes, nodesOfAll_eq_flatMap, children]

theorem self_mem_nodes (n : ConcreteNode) : n ∈ n.nodes := by
  rw [nodes_eq]
  exact List.mem_cons_self

/-- What is below a child is below its parent. -/
theorem mem_nodes_of_mem_children {n c m : ConcreteNode} (hc : c ∈ n.children)
    (hm : m ∈ c.nodes) : m ∈ n.nodes := by
  rw [nodes_eq]
  exact List.mem_cons_of_mem _ (List.mem_flatMap_of_mem hc hm)

/-- One of several nodes weighs no more than all of them. -/
theorem weight_le_weightAll {c : ConcreteNode} {cs : List ConcreteNode} (h : c ∈ cs) :
    weight c ≤ weightAll cs := by
  induction cs with
  | nil => cases h
  | cons d cs ih =>
    rw [weightAll]
    rcases List.mem_cons.1 h with rfl | h
    · omega
    · have := ih h
      omega

theorem weight_lt_of_mem_children {n c : ConcreteNode} (h : c ∈ n.children) :
    weight c < weight n :=
  Nat.lt_of_le_of_lt (weight_le_weightAll h) (weight_children_lt n)

/-- What is below a node of a tree is in the tree. -/
theorem nodes_subset_nodes {n m : ConcreteNode} (h : m ∈ n.nodes) : m.nodes ⊆ n.nodes := by
  rw [nodes_eq, List.mem_cons] at h
  rcases h with rfl | h
  · exact List.Subset.refl _
  · obtain ⟨c, hc, hm⟩ := List.mem_flatMap.1 h
    exact fun x hx ↦ mem_nodes_of_mem_children hc (nodes_subset_nodes hm hx)
termination_by weight n
decreasing_by exact weight_lt_of_mem_children hc

/-- A token, which plays no role. -/
def token (kind : String) (start stop : Nat) : ConcreteNode :=
  node ⟨Text.ofString kind, start, stop, false, false, false, none⟩ []

/-- A named node, which may play a role. -/
def branch (kind : String) (start stop : Nat) (field : Option String) (cs : List ConcreteNode) :
    ConcreteNode :=
  node ⟨Text.ofString kind, start, stop, true, false, false, field.map Text.ofString⟩ cs

/-! ### Groupings -/

/-- A node has one named child, with tokens before and after it. -/
structure Encloses (n : ConcreteNode) (before : List ConcreteNode) (c : ConcreteNode)
    (after : List ConcreteNode) : Prop where
  children : n.children = before ++ c :: after
  before : ∀ a ∈ before, a.head.named = false
  named : c.head.named = true
  after : ∀ a ∈ after, a.head.named = false

namespace Encloses

variable {n c : ConcreteNode} {before after : List ConcreteNode}

theorem mem (h : Encloses n before c after) : c ∈ n.children := by
  rw [h.children]
  exact List.mem_append_right _ List.mem_cons_self

theorem namedChildren (h : Encloses n before c after) : n.namedChildren = [c] := by
  have hbefore : before.filter (·.head.named) = [] :=
    List.filter_eq_nil_iff.2 fun a ha ↦ by simp [h.before a ha]
  have hafter : after.filter (·.head.named) = [] :=
    List.filter_eq_nil_iff.2 fun a ha ↦ by simp [h.after a ha]
  simp [ConcreteNode.namedChildren, h.children, h.named, hbefore, hafter]

end Encloses

/-- A list in which one node is named has tokens before and after this node. -/
theorem exists_eq_append_of_length_filter {cs : List ConcreteNode}
    (h : (cs.filter fun c ↦ c.head.named).length = 1) :
    ∃ before c after, cs = before ++ c :: after ∧ (∀ a ∈ before, a.head.named = false) ∧
      c.head.named = true ∧ ∀ a ∈ after, a.head.named = false := by
  induction cs with
  | nil => simp at h
  | cons d cs ih =>
    by_cases hd : d.head.named = true
    · have hrest : cs.filter (fun c ↦ c.head.named) = [] := by simpa [hd] using h
      refine ⟨[], d, cs, rfl, by simp, hd, ?_⟩
      intro a ha
      simpa using List.filter_eq_nil_iff.1 hrest a ha
    · obtain ⟨before, c, after, rfl, hbefore, hc, hafter⟩ := ih (by simpa [hd] using h)
      refine ⟨d :: before, c, after, rfl, ?_, hc, hafter⟩
      exact List.forall_mem_cons.2 ⟨by simpa using hd, hbefore⟩

/-- A grouping has one named child. -/
theorem exists_encloses {n : ConcreteNode} (h : n.isGrouping = true) :
    ∃ before c after, Encloses n before c after := by
  rw [isGrouping, Bool.and_eq_true, beq_iff_eq] at h
  obtain ⟨before, c, after, hcs, hbefore, hc, hafter⟩ := exists_eq_append_of_length_filter h.2
  exact ⟨before, c, after, hcs, hbefore, hc, hafter⟩

/-- Tokens are passed over on the way to the first named node. -/
theorem seenFirst_append {before : List ConcreteNode} (h : ∀ a ∈ before, a.head.named = false)
    (outer : ConcreteNode) (cs : List ConcreteNode) :
    seenFirst outer (before ++ cs) = seenFirst outer cs := by
  induction before with
  | nil => rfl
  | cons a before ih =>
    rw [List.forall_mem_cons] at h
    rw [List.cons_append, seenFirst, if_neg (by simp [h.1]), ih h.2]

/-- What is no grouping is seen itself. -/
theorem seen_of_not_isGrouping {n : ConcreteNode} (h : n.isGrouping = false) : seen n = n := by
  cases n with
  | node _ cs => rw [seen, if_neg (by simp [h])]

/-- Through a grouping its named child is seen. -/
theorem seen_of_isGrouping {n c : ConcreteNode} {before after : List ConcreteNode}
    (h : n.isGrouping = true) (he : Encloses n before c after) : seen n = seen c := by
  cases n with
  | node _ cs =>
    have hcs : cs = before ++ c :: after := he.children
    rw [seen, if_pos h, hcs, seenFirst_append he.before, seenFirst, if_pos he.named]

/-- What holds of every node that is no grouping, and of a grouping if it holds of its named child,
holds of every node. -/
@[elab_as_elim]
theorem seen_induction {motive : ConcreteNode → Prop}
    (plain : ∀ n, n.isGrouping = false → motive n)
    (grouping : ∀ n before c after, n.isGrouping = true → Encloses n before c after → motive c →
      motive n) (n : ConcreteNode) : motive n := by
  by_cases h : n.isGrouping = true
  · obtain ⟨before, c, after, he⟩ := exists_encloses h
    exact grouping n before c after h he (seen_induction plain grouping c)
  · exact plain n (by simpa using h)
termination_by weight n
decreasing_by exact weight_lt_of_mem_children he.mem

/-- What is seen weighs no more than the node that stands for it. -/
theorem weight_seen_le (n : ConcreteNode) : weight (seen n) ≤ weight n := by
  induction n using seen_induction with
  | plain n h => exact Nat.le_of_eq (congrArg weight (seen_of_not_isGrouping h))
  | grouping n before c after h he ih =>
    rw [seen_of_isGrouping h he]
    exact Nat.le_trans ih (Nat.le_of_lt (weight_lt_of_mem_children he.mem))

/-! ### Nodes that are shown -/

/-- The nodes that are reached through children in document order, each before those below it. Where
a grouping stands, the node is shown that is seen through it; the first node is not seen through. -/
def shown : ConcreteNode → List ConcreteNode
  | node h cs => node h cs :: cs.flatMap fun c ↦ shown (seen c)
termination_by n => weight n
decreasing_by
  rename_i hc
  exact Nat.lt_of_le_of_lt (weight_seen_le c) (weight_lt_of_mem_children hc)

/-- First comes the node itself, then what is shown below each of its children. -/
theorem shown_eq (n : ConcreteNode) :
    shown n = n :: n.children.flatMap fun c ↦ shown (seen c) := by
  cases n with
  | node h cs => rw [shown, children]

/-- A view has the heads of the nodes that are shown. -/
theorem heads_view (octets : List UInt8) (n : ConcreteNode) :
    (n.view octets).heads = (shown n).map (viewHead octets) := by
  induction n using shown.induct with
  | case1 h cs ih =>
    rw [view, AbstractNode.heads, AbstractNode.headsOfAll_eq_flatMap, viewAll_eq_map, shown_eq,
      List.map_cons, List.map_flatMap, List.flatMap_map]
    congr 1
    exact List.flatMap_congr ih

/-! ### Nodes that are passed over -/

/-- No token has children. -/
def TokensAreLeaves (n : ConcreteNode) : Prop :=
  ∀ m ∈ n.nodes, m.head.named = false → m.children = []

instance (n : ConcreteNode) : Decidable n.TokensAreLeaves :=
  inferInstanceAs (Decidable (∀ m ∈ n.nodes, m.head.named = false → m.children = []))

theorem TokensAreLeaves.of_mem_children {n c : ConcreteNode} (h : n.TokensAreLeaves)
    (hc : c ∈ n.children) : c.TokensAreLeaves :=
  fun m hm ↦ h m (mem_nodes_of_mem_children hc hm)

theorem TokensAreLeaves.seen {n : ConcreteNode} (h : n.TokensAreLeaves) :
    (seen n).TokensAreLeaves := by
  induction n using seen_induction with
  | plain n hn => rwa [seen_of_not_isGrouping hn]
  | grouping n before c after hn he ih =>
    rw [seen_of_isGrouping hn he]
    exact ih (h.of_mem_children he.mem)

section Passed

variable {p : ConcreteNode → Bool} (htoken : ∀ n, n.head.named = false → p n = false)
  (hgrouping : ∀ n, n.isGrouping = true → p n = false)

include htoken

/-- Among tokens without children there is nothing to be chosen. -/
theorem filter_flatMap_nodes_of_tokens {cs : List ConcreteNode}
    (hnamed : ∀ c ∈ cs, c.head.named = false) (h : ∀ c ∈ cs, c.TokensAreLeaves) :
    (cs.flatMap nodes).filter p = [] := by
  refine List.filter_eq_nil_iff.2 fun m hm ↦ ?_
  obtain ⟨c, hc, hmc⟩ := List.mem_flatMap.1 hm
  have hleaf : c.children = [] := h c hc c (self_mem_nodes c) (hnamed c hc)
  rw [nodes_eq, hleaf, List.flatMap_nil, List.mem_singleton] at hmc
  simp [hmc, htoken c (hnamed c hc)]

include hgrouping

/-- Seeing through a grouping loses none of the nodes that are neither groupings nor tokens. -/
theorem filter_nodes_seen {n : ConcreteNode} (h : n.TokensAreLeaves) :
    (seen n).nodes.filter p = n.nodes.filter p := by
  induction n using seen_induction with
  | plain n hn => rw [seen_of_not_isGrouping hn]
  | grouping n before c after hn he ih =>
    have hbefore : (before.flatMap nodes).filter p = [] :=
      filter_flatMap_nodes_of_tokens htoken he.before fun a ha ↦
        h.of_mem_children (by simp [he.children, ha])
    have hafter : (after.flatMap nodes).filter p = [] :=
      filter_flatMap_nodes_of_tokens htoken he.after fun a ha ↦
        h.of_mem_children (by simp [he.children, ha])
    rw [seen_of_isGrouping hn he, ih (h.of_mem_children he.mem), nodes_eq n, he.children,
      List.filter_cons_of_neg (by simp [hgrouping n hn]), List.flatMap_append, List.flatMap_cons,
      List.filter_append, List.filter_append, hbefore, hafter, List.nil_append, List.append_nil]

/-- Nothing but groupings and tokens is passed over, and nothing is shown twice or in another order. -/
theorem filter_shown {n : ConcreteNode} (h : n.TokensAreLeaves) :
    (shown n).filter p = n.nodes.filter p := by
  induction n using shown.induct with
  | case1 hd cs ih =>
    have hcs : (cs.flatMap fun c ↦ shown (seen c)).filter p = (cs.flatMap nodes).filter p := by
      rw [List.filter_flatMap, List.filter_flatMap]
      refine List.flatMap_congr fun c hc ↦ ?_
      have hleaves : c.TokensAreLeaves := h.of_mem_children hc
      rw [ih c hc hleaves.seen, filter_nodes_seen htoken hgrouping hleaves]
    rw [shown_eq, nodes_eq, children, List.filter_cons, List.filter_cons, hcs]

end Passed

end CodeAtlas.Syntax.ConcreteNode
