import CodeAtlas.Inventory.Extraction

/-!
# The walk as a traversal

`Inventory.walk` keeps the nodes that are still to be visited on a stack. `Draft.visitTree` visits the
same nodes by recursion over the tree; the two agree on every stack (`walk_cons`), so that what holds
of an inventory can be proved by induction over the tree.
-/

namespace CodeAtlas.Inventory

open Syntax

namespace Draft

mutual

/-- Visits a tree: its root, then the trees below it from left to right. -/
def visitTree (d : Draft) (c : Context) : AbstractNode → Draft
  | .node h cs => visitTrees (d.visit c h cs).1 (d.visit c h cs).2 cs

/-- Visits several trees from left to right. -/
def visitTrees (d : Draft) (c : Context) : List AbstractNode → Draft
  | [] => d
  | n :: ns => visitTrees (visitTree d c n) c ns

end

end Draft

mutual

/-- Walking a stack is visiting its first tree and walking the rest. -/
theorem walk_cons (d : Draft) (c : Context) (stack : List Frame) :
    ∀ n, walk d (⟨n, c⟩ :: stack) = walk (d.visitTree c n) stack
  | .node h cs => by
    rw [walk, Draft.visitTree]
    exact walk_append _ _ stack cs

/-- Walking several trees with the same context is visiting them one after the other. -/
theorem walk_append (d : Draft) (c : Context) (stack : List Frame) :
    ∀ ns, walk d (ns.map (⟨·, c⟩) ++ stack) = walk (d.visitTrees c ns) stack
  | [] => by rw [List.map_nil, List.nil_append, Draft.visitTrees]
  | n :: ns => by
    rw [List.map_cons, List.cons_append, walk_cons, walk_append, Draft.visitTrees]

end

/-- The inventory of a tree is what a visit of the tree leaves. -/
theorem ofTree_eq_visitTree (root : AbstractNode) :
    ofTree root = (Draft.empty.visitTree .root root).inventory := by
  rw [ofTree, walk_cons, walk]

end CodeAtlas.Inventory
