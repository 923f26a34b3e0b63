import CodeAtlas.Proofs.Inventory.Recursion

/-!
# Trees that agree

Two trees agree if they add the same findings wherever they stand, and look the same to the node above
them. A node keeps agreeing when its children are replaced by others that agree with them and when
idle trees, which add nothing, are put between its children (`Agree.node`). Main statement:
`Agree.ofTree_eq`, trees that agree have the same inventory.
-/

namespace CodeAtlas

open Syntax

/-- Two heads tell the same of a node. Only a function is asked for its parameters. -/
structure Syntax.NodeHead.Agrees (h h' : NodeHead) : Prop where
  kind : h'.kind = h.kind
  span : h'.span = h.span
  keyword : h'.keyword = h.keyword
  roles : h'.roles = h.roles
  parameters : h.kind.isFunction = true → h'.parameters = h.parameters

theorem Syntax.NodeHead.Agrees.refl (h : NodeHead) : h.Agrees h := ⟨rfl, rfl, rfl, rfl, fun _ ↦ rfl⟩

namespace Inventory.Findings

/-- Two trees add the same findings wherever they stand, and look the same to the node above them. -/
structure Agree (n m : AbstractNode) : Prop where
  head : n.head.Agrees m.head
  findings : ∀ c scopes, ofTree c scopes m = ofTree c scopes n

theorem Agree.refl (n : AbstractNode) : Agree n n := ⟨.refl _, fun _ _ ↦ rfl⟩

/-- A tree adds nothing, and nothing is made of it by the node above. -/
structure Idle (n : AbstractNode) : Prop where
  kind : n.head.kind ≠ .variableDeclarator
  findings : ∀ c scopes, ofTree c scopes n = empty

/-- A leaf of no kind of its own is idle. -/
theorem idle_leaf {h : NodeHead} (hk : h.kind = .other) : Idle (.node h []) := by
  refine ⟨by simp [AbstractNode.head, hk], fun c scopes ↦ ?_⟩
  rw [ofTree, ofTrees, append_empty]
  simp [ofNode, declarationsOf, hk, NodeKind.opensScope, NodeKind.isFunction, empty]

/-- Several trees agree with others one by one, apart from idle ones among the others. -/
inductive AgreeAll : List AbstractNode → List AbstractNode → Prop
  | nil : AgreeAll [] []
  | cons {n m ns ms} : Agree n m → AgreeAll ns ms → AgreeAll (n :: ns) (m :: ms)
  | idle {m ns ms} : Idle m → AgreeAll ns ms → AgreeAll ns (m :: ms)

variable {h h' : NodeHead} {n m : AbstractNode} {cs ds : List AbstractNode}

/-- A node makes the same of a child as of one that agrees with it. -/
theorem Agree.declarator?_eq (hnm : Agree n m) (keyword : Option Text) (scope : Nat) :
    declarator? keyword scope m = declarator? keyword scope n := by
  simp only [declarator?, Draft.declared?, hnm.head.kind, hnm.head.roles, hnm.head.span]

theorem AgreeAll.filterMap_declarator? (hcs : AgreeAll cs ds) (keyword : Option Text)
    (scope : Nat) : ds.filterMap (declarator? keyword scope) =
      cs.filterMap (declarator? keyword scope) := by
  induction hcs with
  | nil => rfl
  | cons hnm _ ih => rw [List.filterMap_cons, List.filterMap_cons, hnm.declarator?_eq, ih]
  | idle hm _ ih =>
    rw [List.filterMap_cons_none, ih]
    simp [declarator?, hm.kind]

/-- Trees that agree one by one add the same together. -/
theorem AgreeAll.ofTrees_eq (hcs : AgreeAll cs ds) (c : Context) (scopes : Nat) :
    ofTrees c scopes ds = ofTrees c scopes cs := by
  induction hcs generalizing scopes with
  | nil => rfl
  | cons hnm _ ih => rw [ofTrees, ofTrees, hnm.findings, ih]
  | idle hm _ ih =>
    rw [ofTrees, hm.findings, empty_append]
    exact ih scopes

/-- A node gives a function the name that one gives that agrees with it. -/
theorem functionName_eq_of_agrees (hh : h.Agrees h') (c : Context) :
    functionName c h' = functionName c h := by
  simp only [functionName, Draft.declaredName, hh.kind, hh.roles]

/-- A node declares what one declares that agrees with it. -/
theorem declarationsOf_eq_of_agrees (hh : h.Agrees h') (hcs : AgreeAll cs ds) (c : Context) :
    declarationsOf c h' ds = declarationsOf c h cs := by
  cases hk : h.kind with
  | functionDeclaration | functionLiteral =>
    have hparameters := hh.parameters (by simp [hk, NodeKind.isFunction])
    simp only [declarationsOf, hh.kind, hk, functionName_eq_of_agrees hh, hh.span, hparameters]
  | variableDeclaration =>
    simp only [declarationsOf, hh.kind, hk, hh.keyword, hcs.filterMap_declarator?]
  | loopDeclaration =>
    simp only [declarationsOf, hh.kind, hk, loopVariable?, hh.keyword, hh.roles]
  | classDeclaration | importDeclaration =>
    simp only [declarationsOf, hh.kind, hk, Draft.declaredName, import?, hh.span, hh.roles]
  | variableDeclarator | call | identifier | string | other =>
    simp only [declarationsOf, hh.kind, hk]

/-- A node adds by itself what one adds that agrees with it. -/
theorem ofNode_eq_of_agrees (hh : h.Agrees h') (hcs : AgreeAll cs ds) (c : Context) :
    ofNode c h' ds = ofNode c h cs := by
  simp only [ofNode, declarationsOf_eq_of_agrees hh hcs, call?, hh.kind, hh.roles]

/-- A node hands down what one hands down that agrees with it. -/
theorem inherited_eq_of_agrees (hh : h.Agrees h') (c : Context) (scopes : Nat) :
    inherited c scopes h' = inherited c scopes h := by
  simp only [inherited, functionName_eq_of_agrees hh, Draft.declared?, hh.kind, hh.roles]

/-- A node agrees with one that tells the same of itself and has children that agree. -/
theorem Agree.node (hh : h.Agrees h') (hcs : AgreeAll cs ds) :
    Agree (.node h cs) (.node h' ds) := by
  refine ⟨hh, fun c scopes ↦ ?_⟩
  rw [ofTree, ofTree, ofNode_eq_of_agrees hh hcs, inherited_eq_of_agrees hh, hcs.ofTrees_eq]

/-- Trees that agree have the same inventory. -/
theorem Agree.ofTree_eq (hnm : Agree n m) : Inventory.ofTree m = Inventory.ofTree n := by
  rw [ofTree_eq_visitTree, ofTree_eq_visitTree, inventory_visitTree, inventory_visitTree,
    hnm.findings]

end Inventory.Findings

end CodeAtlas
