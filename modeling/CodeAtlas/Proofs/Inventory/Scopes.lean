import CodeAtlas.Proofs.Inventory.Recursion
import Mathlib.Data.List.Forall2

/-!
# Scopes of entities

The functions and classes of a tree are its blocks, numbered in document order. The scope of an entity is
the number of the nearest block around the node that declares it. A visit does not know where it is in
the tree: it has the number of blocks before a node (`blocksBefore`), which is the number of scopes
opened so far, and the scope of what is around. That these two fit together is the invariant `Within`,
and what is declared under it is `forall₂_declares_ofTree`. Main statement: `scope_eq_scopeNumber`.
-/

namespace CodeAtlas

open Syntax

namespace Syntax

/-! ### Sites -/

/-- The nearest of several nodes, listed from the inside out, that is a block. -/
def nearestBlock? (around : List (Nat × NodeHead)) : Option Nat :=
  (around.find? fun a ↦ a.2.kind.opensScope).map (·.1)

/-- A node where it stands in a tree. -/
structure Site where
  node : AbstractNode
  /-- How many nodes come before it in document order. -/
  index : Nat
  /-- The nodes around it, the nearest first, each with the number of nodes before it. -/
  around : List (Nat × NodeHead)

namespace Site

/-- Several trees side by side, where they stand. -/
def siblings (index : Nat) (around : List (Nat × NodeHead)) : List AbstractNode → List Site
  | [] => []
  | n :: ns => ⟨n, index, around⟩ :: siblings (index + n.heads.length) around ns

/-- The children of a node, where they stand. -/
def children (s : Site) : List Site :=
  siblings (s.index + 1) ((s.index, s.node.head) :: s.around) s.node.children

/-- Whether a node is a block, that is, a function or a class. -/
def isBlock (s : Site) : Bool := s.node.head.kind.opensScope

/-- The nearest block around a node, by the number of nodes before it. -/
def block? (s : Site) : Option Nat := nearestBlock? s.around

end Site

namespace AbstractNode

mutual

/-- The nodes of a tree where they stand, each before those below it. -/
def sites (index : Nat) (around : List (Nat × NodeHead)) : AbstractNode → List Site
  | node h cs => ⟨node h cs, index, around⟩ :: sitesOfAll (index + 1) ((index, h) :: around) cs

/-- The nodes of several trees side by side, where they stand. -/
def sitesOfAll (index : Nat) (around : List (Nat × NodeHead)) : List AbstractNode → List Site
  | [] => []
  | n :: ns => sites index around n ++ sitesOfAll (index + n.heads.length) around ns

end

theorem self_mem_sites (index : Nat) (around : List (Nat × NodeHead)) (n : AbstractNode) :
    ⟨n, index, around⟩ ∈ n.sites index around := by
  cases n
  exact List.mem_cons_self

theorem siblings_subset_sitesOfAll (index : Nat) (around : List (Nat × NodeHead))
    (ns : List AbstractNode) : Site.siblings index around ns ⊆ sitesOfAll index around ns := by
  induction ns generalizing index with
  | nil => exact List.Subset.refl _
  | cons n ns ih =>
    refine List.cons_subset.2 ⟨List.mem_append_left _ (self_mem_sites index around n), ?_⟩
    exact List.subset_append_of_subset_right _ (ih _)

mutual

/-- The children of a node of a tree stand in the tree. -/
theorem children_subset_sites (index : Nat) (around : List (Nat × NodeHead)) :
    ∀ n : AbstractNode, ∀ s ∈ n.sites index around, s.children ⊆ n.sites index around
  | .node h cs, s, hs => by
    refine List.subset_cons_of_subset _ ?_
    rcases List.mem_cons.1 hs with rfl | hs
    · exact siblings_subset_sitesOfAll (index + 1) ((index, h) :: around) cs
    · exact children_subset_sitesOfAll (index + 1) ((index, h) :: around) cs s hs

/-- The children of a node of several trees stand in these. -/
theorem children_subset_sitesOfAll (index : Nat) (around : List (Nat × NodeHead)) :
    ∀ ns, ∀ s ∈ sitesOfAll index around ns, s.children ⊆ sitesOfAll index around ns
  | n :: ns, s, hs => by
    rcases List.mem_append.1 hs with hs | hs
    · exact List.subset_append_of_subset_left _ (children_subset_sites index around n s hs)
    · exact List.subset_append_of_subset_right _
        (children_subset_sitesOfAll (index + n.heads.length) around ns s hs)

end

end AbstractNode

/-! ### Numbers of blocks -/

/-- How many of the nodes of a tree that come before a place are blocks. -/
def blocksBefore (heads : List NodeHead) (index : Nat) : Nat :=
  (heads.take index).countP (·.kind.opensScope)

/-- The number of a block: how many blocks there are up to it, with itself. -/
def blockNumber (heads : List NodeHead) (index : Nat) : Nat := blocksBefore heads (index + 1)

/-- The number of a block if there is one, and zero otherwise. -/
def scopeNumber (heads : List NodeHead) (block : Option Nat) : Nat :=
  block.elim 0 (blockNumber heads)

/-- Some nodes follow each other in document order, the first one at a place. -/
def StandsAt (heads : List NodeHead) (index : Nat) (own : List NodeHead) : Prop :=
  own <+: heads.drop index

section Blocks

variable {heads own rest : List NodeHead} {h : NodeHead} {index : Nat}

theorem StandsAt.left (hstands : StandsAt heads index (own ++ rest)) : StandsAt heads index own :=
  (List.prefix_append own rest).trans hstands

theorem StandsAt.right (hstands : StandsAt heads index (own ++ rest)) :
    StandsAt heads (index + own.length) rest := by
  obtain ⟨after, hafter⟩ := hstands
  refine ⟨after, ?_⟩
  rw [← List.drop_drop, ← hafter, List.append_assoc, List.drop_left]

theorem StandsAt.head (hstands : StandsAt heads index (h :: rest)) : StandsAt heads index [h] :=
  @StandsAt.left heads [h] rest index hstands

theorem StandsAt.tail (hstands : StandsAt heads index (h :: rest)) :
    StandsAt heads (index + 1) rest :=
  @StandsAt.right heads [h] rest index hstands

theorem StandsAt.getElem? (hstands : StandsAt heads index (h :: rest)) : heads[index]? = some h := by
  obtain ⟨after, hafter⟩ := hstands
  rw [← Nat.add_zero index, ← List.getElem?_drop, ← hafter]
  rfl

/-- Behind some nodes there are their blocks more than before them. -/
theorem blocksBefore_add_length (hstands : StandsAt heads index own) :
    blocksBefore heads (index + own.length) =
      blocksBefore heads index + own.countP (·.kind.opensScope) := by
  rw [blocksBefore, List.take_add, ← List.prefix_iff_eq_take.1 hstands, List.countP_append]
  rfl

theorem blocksBefore_le {i j : Nat} (hle : i ≤ j) : blocksBefore heads i ≤ blocksBefore heads j :=
  (List.take_sublist_take_left hle).countP_le

/-- A block is numbered one more than there are blocks before it. -/
theorem blockNumber_eq (hget : heads[index]? = some h) (hblock : h.kind.opensScope = true) :
    blockNumber heads index = blocksBefore heads index + 1 := by
  rw [blockNumber, blocksBefore, List.take_add_one, hget, List.countP_append, Option.toList_some,
    List.countP_singleton, if_pos hblock]
  rfl

/-- No block has the number of one that comes before it. -/
theorem blockNumber_lt {i j : Nat} (hlt : i < j) (hget : heads[j]? = some h)
    (hblock : h.kind.opensScope = true) : blockNumber heads i < blockNumber heads j := by
  rw [blockNumber_eq hget hblock]
  exact Nat.lt_succ_of_le (blocksBefore_le hlt)

theorem blockNumber_ne_zero (hget : heads[index]? = some h) (hblock : h.kind.opensScope = true) :
    blockNumber heads index ≠ 0 := by
  rw [blockNumber_eq hget hblock]
  exact Nat.succ_ne_zero _

mutual

/-- The blocks of a tree are numbered one after the other. -/
theorem map_blockNumber_sites (index : Nat) (around : List (Nat × NodeHead)) :
    ∀ n : AbstractNode, StandsAt heads index n.heads →
      ((n.sites index around).filter (·.isBlock)).map (fun s ↦ blockNumber heads s.index) =
        List.range' (blocksBefore heads index + 1) (n.heads.countP (·.kind.opensScope))
  | .node h cs, hstands => by
    have hbelow := map_blockNumber_sitesOfAll (index + 1) ((index, h) :: around) cs hstands.tail
    have hbefore : blocksBefore heads (index + 1) =
        blocksBefore heads index + [h].countP (·.kind.opensScope) :=
      blocksBefore_add_length hstands.head
    rw [hbefore, List.countP_singleton] at hbelow
    have hisBlock : Site.isBlock ⟨.node h cs, index, around⟩ = h.kind.opensScope := rfl
    rw [AbstractNode.sites, AbstractNode.heads, List.countP_cons, List.filter_cons, hisBlock]
    by_cases hblock : h.kind.opensScope = true
    · rw [if_pos hblock] at hbelow
      rw [if_pos hblock, if_pos hblock, List.map_cons, hbelow, List.range'_succ,
        blockNumber_eq hstands.getElem? hblock]
    · rw [if_neg hblock] at hbelow
      rw [if_neg hblock, if_neg hblock]
      exact hbelow

/-- The blocks of several trees are numbered one after the other. -/
theorem map_blockNumber_sitesOfAll (index : Nat) (around : List (Nat × NodeHead)) :
    ∀ ns, StandsAt heads index (AbstractNode.headsOfAll ns) →
      ((AbstractNode.sitesOfAll index around ns).filter (·.isBlock)).map
          (fun s ↦ blockNumber heads s.index) =
        List.range' (blocksBefore heads index + 1)
          ((AbstractNode.headsOfAll ns).countP (·.kind.opensScope))
  | [], _ => rfl
  | n :: ns, hstands => by
    rw [AbstractNode.headsOfAll] at hstands
    have hrest := map_blockNumber_sitesOfAll (index + n.heads.length) around ns hstands.right
    rw [blocksBefore_add_length hstands.left, Nat.add_right_comm] at hrest
    rw [AbstractNode.sitesOfAll, List.filter_append, List.map_append, hrest,
      map_blockNumber_sites index around n hstands.left, List.range'_append_1,
      AbstractNode.headsOfAll, List.countP_append]

end

/-! ### Nearest blocks -/

/-- Around a node is a block with a number as its scope, or none at all. -/
structure Within (heads : List NodeHead) (around : List (Nat × NodeHead)) (scope : Nat) : Prop where
  scope : scope = scopeNumber heads (nearestBlock? around)
  isBlock : ∀ i ∈ nearestBlock? around, ∃ h, heads[i]? = some h ∧ h.kind.opensScope = true

namespace Within

variable {around around' : List (Nat × NodeHead)} {scope scope' : Nat}

theorem nil : Within heads [] 0 := ⟨rfl, fun _ hi ↦ nomatch hi⟩

/-- What is in a block has its number as its scope; what is in another node has the scope of the node. -/
theorem cons (hwithin : Within heads around scope) (hget : heads[index]? = some h) :
    Within heads ((index, h) :: around)
      (if h.kind.opensScope then blocksBefore heads index + 1 else scope) := by
  by_cases hblock : h.kind.opensScope = true
  · have hnearest : nearestBlock? ((index, h) :: around) = some index := by
      simp [nearestBlock?, hblock]
    refine ⟨?_, fun i hi ↦ ?_⟩
    · rw [hnearest, if_pos hblock]
      exact (blockNumber_eq hget hblock).symm
    · rw [hnearest] at hi
      cases hi
      exact ⟨h, hget, hblock⟩
  · have hnearest : nearestBlock? ((index, h) :: around) = nearestBlock? around := by
      simp [nearestBlock?, hblock]
    rw [if_neg hblock]
    exact ⟨hnearest ▸ hwithin.scope, hnearest ▸ hwithin.isBlock⟩

/-- The number of a block is not zero, and not that of another one. -/
theorem scope_eq_iff (hwithin : Within heads around scope) (hwithin' : Within heads around' scope') :
    scope = scope' ↔ nearestBlock? around = nearestBlock? around' := by
  obtain ⟨rfl, hblocks⟩ := hwithin
  obtain ⟨rfl, hblocks'⟩ := hwithin'
  refine ⟨fun heq ↦ ?_, fun heq ↦ by rw [heq]⟩
  cases hi : nearestBlock? around with
  | none =>
    cases hj : nearestBlock? around' with
    | none => rfl
    | some j =>
      obtain ⟨h, hget, hblock⟩ := hblocks' j hj
      rw [hi, hj] at heq
      exact absurd heq.symm (blockNumber_ne_zero hget hblock)
  | some i =>
    obtain ⟨h, hget, hblock⟩ := hblocks i hi
    cases hj : nearestBlock? around' with
    | none =>
      rw [hi, hj] at heq
      exact absurd heq (blockNumber_ne_zero hget hblock)
    | some j =>
      obtain ⟨h', hget', hblock'⟩ := hblocks' j hj
      rw [hi, hj] at heq
      rcases Nat.lt_trichotomy i j with hij | rfl | hij
      · exact absurd heq (Nat.ne_of_lt (blockNumber_lt hij hget' hblock'))
      · rfl
      · exact absurd heq.symm (Nat.ne_of_lt (blockNumber_lt hij hget hblock))

end Within

end Blocks

end Syntax

namespace Inventory

/-! ### Nodes that declare something -/

/-- A node that declares an entity of a kind. -/
structure Declarer where
  kind : EntityKind
  site : Site

namespace Declarer

/-- Where the entity stands: where its node stands, except that the variable of a loop stands where the
loop binds it. -/
def span? (d : Declarer) : Option Span :=
  if d.site.node.head.kind = .loopDeclaration then d.site.node.head.roles.target.map (·.span)
  else some d.site.node.head.span

end Declarer

/-- Whether a node is a declarator that binds an identifier. -/
def bindsName (s : Site) : Bool :=
  s.node.head.kind = .variableDeclarator && (Draft.declared? s.node.head).isSome

/-- Whether a node is a loop that declares an identifier. -/
def bindsLoopName (h : NodeHead) : Bool :=
  h.keyword.isSome && (h.roles.target.bind Part.identifier?).isSome

/-- Whether a node imports from a module that is named by a literal. -/
def namesModule (h : NodeHead) : Bool := h.roles.source.any fun source ↦ source.kind = .string

/-- What is declared at a node: a function, a class, an import from a literal and the variable of a loop
by the node itself, variables by the declarators among its children. -/
def declarers (s : Site) : List Declarer :=
  match s.node.head.kind with
  | .functionDeclaration | .functionLiteral => [⟨.functionKind, s⟩]
  | .classDeclaration => [⟨.classKind, s⟩]
  | .variableDeclaration => (s.children.filter bindsName).map (⟨.variableKind, ·⟩)
  | .loopDeclaration => if bindsLoopName s.node.head then [⟨.variableKind, s⟩] else []
  | .importDeclaration => if namesModule s.node.head then [⟨.importKind, s⟩] else []
  | .variableDeclarator | .call | .identifier | .string | .other => []

/-- A node declares something by itself or by its children. -/
theorem site_eq_or_mem_children {s : Site} {d : Declarer} (h : d ∈ declarers s) :
    d.site = s ∨ d.site ∈ s.children := by
  have hself {k : EntityKind} (hd : d ∈ [⟨k, s⟩]) : d.site = s := by
    rw [List.mem_singleton.1 hd]
  cases hk : s.node.head.kind with
  | functionDeclaration | functionLiteral | classDeclaration =>
    simp only [declarers, hk] at h
    exact .inl (hself h)
  | variableDeclaration =>
    simp only [declarers, hk] at h
    obtain ⟨t, ht, rfl⟩ := List.mem_map.1 h
    exact .inr (List.mem_of_mem_filter ht)
  | loopDeclaration | importDeclaration =>
    simp only [declarers, hk] at h
    split at h
    · exact .inl (hself h)
    · cases h
  | variableDeclarator | call | identifier | string | other => simp [declarers, hk] at h

/-- The declarers of a kind in a tree. -/
def declarersOf (root : AbstractNode) (k : EntityKind) : List Declarer :=
  ((root.sites 0 []).flatMap declarers).filter (·.kind = k)

theorem site_mem_of_mem_declarersOf {root : AbstractNode} {k : EntityKind} {d : Declarer}
    (h : d ∈ declarersOf root k) : d.site ∈ root.sites 0 [] := by
  obtain ⟨s, hs, hd⟩ := List.mem_flatMap.1 (List.mem_of_mem_filter h)
  rcases site_eq_or_mem_children hd with heq | hmem
  · rwa [heq]
  · exact AbstractNode.children_subset_sites 0 [] root s hs hmem

/-- A declaration is that of a declarer, with the number of the block around it. -/
structure Declares (heads : List NodeHead) (s : Declarer) (d : Declaration) : Prop where
  kind : d.kind = s.kind
  span : some d.span = s.span?
  within : Within heads s.site.around d.scope

namespace Findings

section Trees

variable {heads : List NodeHead} {around : List (Nat × NodeHead)}

/-- The variables of declarators have the scope of the declarators. -/
theorem forall₂_declares_declarators {scope : Nat} (hwithin : Within heads around scope)
    (keyword : Option Text) (index : Nat) (cs : List AbstractNode) :
    List.Forall₂ (Declares heads)
      (((Site.siblings index around cs).filter bindsName).map (⟨.variableKind, ·⟩))
      (cs.filterMap (declarator? keyword scope)) := by
  induction cs generalizing index with
  | nil => exact .nil
  | cons n ns ih =>
    have hrest := ih (index + n.heads.length)
    rw [Site.siblings, List.filter_cons]
    by_cases hk : n.head.kind = .variableDeclarator
    · cases hd : Draft.declared? n.head with
      | none =>
        have hn : declarator? keyword scope n = none := by simp [declarator?, hk, hd]
        rw [if_neg (by simp [bindsName, hd]), List.filterMap_cons_none hn]
        exact hrest
      | some name =>
        have hn : declarator? keyword scope n =
            some ⟨.variableKind, name, n.head.span, [], keyword, scope⟩ := by
          simp [declarator?, hk, hd]
        rw [if_pos (by simp [bindsName, hk, hd]), List.filterMap_cons_some hn]
        exact .cons ⟨rfl, by simp [Declarer.span?, hk], hwithin⟩ hrest
    · have hn : declarator? keyword scope n = none := by simp [declarator?, hk]
      rw [if_neg (by simp [bindsName, hk]), List.filterMap_cons_none hn]
      exact hrest

/-- What a node declares has the scope of the node. -/
theorem forall₂_declares_declarationsOf {c : Context} {s : Site}
    (hwithin : Within heads s.around c.scope) (hget : heads[s.index]? = some s.node.head) :
    List.Forall₂ (Declares heads) (declarers s) (declarationsOf c s.node.head s.node.children) := by
  cases hk : s.node.head.kind with
  | functionDeclaration | functionLiteral | classDeclaration =>
    simp only [declarers, declarationsOf, hk]
    exact .cons ⟨rfl, by simp [Declarer.span?, hk], hwithin⟩ .nil
  | variableDeclaration =>
    simp only [declarers, declarationsOf, hk]
    have hchildren := hwithin.cons hget
    rw [if_neg (by simp [hk, NodeKind.opensScope, NodeKind.isFunction])] at hchildren
    exact forall₂_declares_declarators hchildren s.node.head.keyword (s.index + 1) s.node.children
  | loopDeclaration =>
    simp only [declarers, declarationsOf, hk, loopVariable?]
    cases hkeyword : s.node.head.keyword with
    | none => simp [bindsLoopName, hkeyword]
    | some keyword =>
      cases htarget : s.node.head.roles.target with
      | none => simp [bindsLoopName, htarget]
      | some target =>
        cases hname : target.identifier? with
        | none => simp [bindsLoopName, htarget, hname]
        | some name =>
          rw [if_pos (by simp [bindsLoopName, hkeyword, htarget, hname])]
          simp only [Option.bind_eq_bind, Option.bind_some, hname]
          exact .cons ⟨rfl, by simp [Declarer.span?, hk, htarget], hwithin⟩ .nil
  | importDeclaration =>
    simp only [declarers, declarationsOf, hk, import?]
    cases hsource : s.node.head.roles.source with
    | none => simp [namesModule, hsource]
    | some source =>
      by_cases hstring : source.kind = .string
      · rw [if_pos (by simp [namesModule, hsource, hstring])]
        simp only [Option.bind_eq_bind, Option.bind_some, hstring, if_true]
        exact .cons ⟨rfl, by simp [Declarer.span?, hk], hwithin⟩ .nil
      · simp [namesModule, hsource, hstring]
  | variableDeclarator | call | identifier | string | other =>
    simp only [declarers, declarationsOf, hk]
    exact .nil

/-- A node opens a scope exactly if it is a block. -/
theorem scopes_ofNode (c : Context) (h : NodeHead) (cs : List AbstractNode) :
    (ofNode c h cs).scopes = [h].countP (·.kind.opensScope) := by
  rw [List.countP_singleton]
  rfl

mutual

/-- A tree opens as many scopes as there are blocks in it. -/
theorem scopes_ofTree (c : Context) (scopes : Nat) :
    ∀ n, (ofTree c scopes n).scopes = n.heads.countP (·.kind.opensScope)
  | .node h cs => by
    rw [ofTree, scopes_append, scopes_ofNode, scopes_ofTrees, ← List.countP_append]
    rfl

/-- Several trees open as many scopes as there are blocks in them. -/
theorem scopes_ofTrees (c : Context) (scopes : Nat) :
    ∀ ns, (ofTrees c scopes ns).scopes =
      (AbstractNode.headsOfAll ns).countP (·.kind.opensScope)
  | [] => rfl
  | n :: ns => by
    rw [ofTrees, scopes_append, scopes_ofTree, scopes_ofTrees, ← List.countP_append]
    rfl

end

mutual

/-- If as many scopes have been opened as there are blocks before a tree, then what is declared in the
tree has the numbers of the blocks around it as scopes. -/
theorem forall₂_declares_ofTree (index : Nat) (around : List (Nat × NodeHead)) (c : Context)
    (hwithin : Within heads around c.scope) :
    ∀ n : AbstractNode, StandsAt heads index n.heads →
      List.Forall₂ (Declares heads) ((n.sites index around).flatMap declarers)
        (ofTree c (blocksBefore heads index) n).declarations
  | .node h cs, hstands => by
    have hbefore := blocksBefore_add_length hstands.head
    rw [AbstractNode.sites, List.flatMap_cons, ofTree, declarations_append, scopes_ofNode, ← hbefore]
    exact List.rel_append
      (forall₂_declares_declarationsOf (s := ⟨.node h cs, index, around⟩) hwithin hstands.getElem?)
      (forall₂_declares_ofTrees (index + 1) ((index, h) :: around)
        (inherited c (blocksBefore heads index) h) (hwithin.cons hstands.getElem?) cs hstands.tail)

/-- What is declared in several trees has the numbers of the blocks around it as scopes. -/
theorem forall₂_declares_ofTrees (index : Nat) (around : List (Nat × NodeHead)) (c : Context)
    (hwithin : Within heads around c.scope) :
    ∀ ns, StandsAt heads index (AbstractNode.headsOfAll ns) →
      List.Forall₂ (Declares heads) ((AbstractNode.sitesOfAll index around ns).flatMap declarers)
        (ofTrees c (blocksBefore heads index) ns).declarations
  | [], _ => .nil
  | n :: ns, hstands => by
    rw [AbstractNode.headsOfAll] at hstands
    have hbefore := blocksBefore_add_length hstands.left
    rw [AbstractNode.sitesOfAll, List.flatMap_append, ofTrees, declarations_append, scopes_ofTree,
      ← hbefore]
    exact List.rel_append (forall₂_declares_ofTree index around c hwithin n hstands.left)
      (forall₂_declares_ofTrees (index + n.heads.length) around c hwithin ns hstands.right)

end

/-- The entity of a declaration is numbered, but has its kind, place and scope. -/
theorem forall₂_entities {ss : List Declarer} {ds : List Declaration}
    (hdeclares : List.Forall₂ (Declares heads) ss ds) (f : Nat → Declaration → Entity) :
    List.Forall₂ (fun s e ↦ ∃ d, Declares heads s d ∧ ∃ i, e = f i d) ss (ds.mapIdx f) := by
  induction hdeclares generalizing f with
  | nil => exact .nil
  | cons hd _ ih =>
    rw [List.mapIdx_cons]
    refine .cons ⟨_, hd, 0, rfl⟩ ((ih fun i ↦ f (i + 1)).imp ?_)
    rintro s e ⟨d, hd, i, rfl⟩
    exact ⟨d, hd, i + 1, rfl⟩

end Trees

end Findings

/-- The entities of a kind are, one by one, those of the nodes that declare the kind. -/
theorem forall₂_ofKind (root : AbstractNode) (k : EntityKind) :
    List.Forall₂ (fun s e ↦ s.kind = k ∧ ∃ d, Declares root.heads s d ∧ ∃ i, e = d.entity i)
      (declarersOf root k) ((ofTree root).ofKind k) := by
  have hstands : StandsAt root.heads 0 root.heads := List.prefix_refl _
  have hdeclares := Findings.forall₂_declares_ofTree 0 [] .root .nil root hstands
  have hkind : ∀ ⦃s e⦄, (∃ d, Declares root.heads s d ∧ ∃ i, e = d.entity i) →
      (decide (s.kind = k) = true ↔ decide (e.kind = k) = true) := by
    rintro s e ⟨d, hd, i, rfl⟩
    rw [decide_eq_true_iff, decide_eq_true_iff, ← hd.kind]
    rfl
  rw [ofTree_eq_visitTree, Findings.inventory_visitTree, Findings.ofKind_inventory]
  refine (List.forall₂_and_left _ _).2 ⟨fun s hs ↦ ?_, List.rel_filter hkind
    (Findings.forall₂_entities hdeclares Declaration.entity)⟩
  simpa using (List.mem_filter.1 hs).2

/-- Scopes name blocks. Number the functions and classes of a tree from one on in document order. Then the
scope of every entity is the number of the nearest function or class around the node of the tree that
declares it, or zero if there is none: so two entities have the same scope exactly if the same function
or class is the nearest around them. -/
theorem scope_eq_scopeNumber (root : AbstractNode) :
    let blocks := (root.sites 0 []).filter (·.isBlock)
    let declared (k : EntityKind) := (declarersOf root k).zip ((ofTree root).ofKind k)
    blocks.map (fun s ↦ blockNumber root.heads s.index) = List.range' 1 blocks.length ∧
      (∀ k, (∀ s ∈ declarersOf root k, s.site ∈ root.sites 0 []) ∧
        List.Forall₂ (fun s e ↦ e.kind = k ∧ e.span = s.span? ∧
            e.scope = (scopeNumber root.heads s.site.block? : Int))
          (declarersOf root k) ((ofTree root).ofKind k)) ∧
      ∀ k k', ∀ x ∈ declared k, ∀ y ∈ declared k',
        x.2.scope = y.2.scope ↔ x.1.site.block? = y.1.site.block? := by
  intro blocks declared
  refine ⟨?_, fun k ↦ ⟨fun s ↦ site_mem_of_mem_declarersOf, (forall₂_ofKind root k).imp ?_⟩, ?_⟩
  · have hnumbers := map_blockNumber_sites 0 [] root (List.prefix_refl root.heads)
    have hlength := congrArg List.length hnumbers
    rw [List.length_map, List.length_range'] at hlength
    rw [hnumbers, hlength]
    rfl
  · rintro s e ⟨rfl, d, hd, i, rfl⟩
    exact ⟨hd.kind, hd.span, congrArg Int.ofNat hd.within.scope⟩
  · rintro k k' ⟨s, e⟩ hx ⟨s', e'⟩ hy
    obtain ⟨-, d, hd, i, rfl⟩ := (List.forall₂_iff_zip.1 (forall₂_ofKind root k)).2 hx
    obtain ⟨-, d', hd', i', rfl⟩ := (List.forall₂_iff_zip.1 (forall₂_ofKind root k')).2 hy
    exact Int.ofNat_inj.trans (hd.within.scope_eq_iff hd'.within)

end Inventory

end CodeAtlas
