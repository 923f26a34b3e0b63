import CodeAtlas.Proofs.Inventory.Calls

/-!
# Inventories by recursion

`Findings.ofTree` collects what a tree declares and calls by recursion over the tree: first what the
node itself adds, then what its children add from left to right. Declarations are numbered at the end,
in their order, and then sorted by kinds. `Findings.draft` is the draft that some findings amount to;
a visit of a tree takes the draft of what was found before to the draft of that and what the tree adds.
Main statement: `ofTree_eq_inventory_findings`.
-/

namespace CodeAtlas.Inventory

open Syntax

/-- Something that a source declares, without a number. -/
structure Declaration where
  kind : EntityKind
  name : Text
  span : Span
  parameters : List Text
  keyword : Option Text
  scope : Nat
  deriving DecidableEq

/-- The entity that a declaration becomes under a number. -/
def Declaration.entity (ordinal : Nat) (d : Declaration) : Entity where
  id := Draft.identifier d.kind d.name d.span.start.line ordinal
  kind := d.kind
  name := d.name
  span := some d.span
  parameters := d.parameters
  keyword := d.keyword
  scope := d.scope

/-- The entities of a kind. -/
def ofKind (i : Inventory) : EntityKind → List Entity
  | .functionKind => i.functions
  | .variableKind => i.vars
  | .classKind => i.classes
  | .importKind => i.imports

/-- What is found in a part of a tree, in document order. -/
@[ext]
structure Findings where
  declarations : List Declaration
  /-- The calls, each by its caller and its callee. -/
  calls : List (Text × Text)
  /-- How many scopes are opened. -/
  scopes : Nat
  deriving DecidableEq

namespace Findings

/-- Nothing is found. -/
def empty : Findings := ⟨[], [], 0⟩

instance : Append Findings where
  append f g := ⟨f.declarations ++ g.declarations, f.calls ++ g.calls, f.scopes + g.scopes⟩

@[simp]
theorem declarations_append (f g : Findings) :
    (f ++ g).declarations = f.declarations ++ g.declarations := rfl

@[simp]
theorem calls_append (f g : Findings) : (f ++ g).calls = f.calls ++ g.calls := rfl

@[simp]
theorem scopes_append (f g : Findings) : (f ++ g).scopes = f.scopes + g.scopes := rfl

theorem empty_append (f : Findings) : empty ++ f = f := by
  ext1 <;> simp [empty]

theorem append_empty (f : Findings) : f ++ empty = f := by
  ext1 <;> simp [empty]

theorem append_assoc (f g h : Findings) : f ++ g ++ h = f ++ (g ++ h) := by
  ext1 <;> simp [Nat.add_assoc]

/-- Only declarations are found. -/
def declaring (ds : List Declaration) : Findings := ⟨ds, [], 0⟩

/-- Only calls are found. -/
def calling (calls : List (Text × Text)) : Findings := ⟨[], calls, 0⟩

/-- Only a scope is opened. -/
def opening : Findings := ⟨[], [], 1⟩

@[simp]
theorem declarations_declaring (ds : List Declaration) : (declaring ds).declarations = ds := rfl

@[simp]
theorem calls_declaring (ds : List Declaration) : (declaring ds).calls = [] := rfl

@[simp]
theorem scopes_declaring (ds : List Declaration) : (declaring ds).scopes = 0 := rfl

theorem declaring_nil : declaring [] = empty := rfl

theorem declaring_cons (d : Declaration) (ds : List Declaration) :
    declaring (d :: ds) = declaring [d] ++ declaring ds := rfl

/-- The entities that the declarations become, numbered in their order. -/
def entities (f : Findings) : List Entity := f.declarations.mapIdx Declaration.entity

/-- What is asked of the entities of a kind can be asked of the declarations, if it does not depend on the
numbers. -/
theorem map_filter_entities {α : Type} {g : Entity → α} {g' : Declaration → α}
    (h : ∀ ordinal d, g (d.entity ordinal) = g' d) (k : EntityKind) (f : Findings) :
    (f.entities.filter (·.kind = k)).map g = (f.declarations.filter (·.kind = k)).map g' := by
  have hboth : f.entities.map (fun e ↦ (e.kind, g e)) =
      f.declarations.map fun d ↦ (d.kind, g' d) := by
    refine List.ext_getElem (by simp [entities]) fun i hi hi' ↦ ?_
    rw [List.getElem_map, List.getElem_map]
    simp only [entities, List.getElem_mapIdx, h]
    rfl
  have hchosen := congrArg (fun l ↦ (l.filter fun p ↦ p.1 = k).map Prod.snd) hboth
  simpa [List.filter_map, Function.comp_def] using hchosen

/-- The inventory of what is found. -/
def inventory (f : Findings) : Inventory where
  functions := f.entities.filter (·.kind = .functionKind)
  vars := f.entities.filter (·.kind = .variableKind)
  classes := f.entities.filter (·.kind = .classKind)
  imports := f.entities.filter (·.kind = .importKind)
  calls := CallGraph.recordAll [] f.calls

theorem ofKind_inventory (f : Findings) (k : EntityKind) :
    f.inventory.ofKind k = f.entities.filter (·.kind = k) := by
  cases k <;> rfl

/-! ### Nodes on their own -/

/-- The name of a function. -/
def functionName (c : Context) (h : NodeHead) : Text :=
  if h.kind = .functionLiteral then Draft.literalName c else Draft.declaredName h

/-- The variable of a declarator that binds an identifier. -/
def declarator? (keyword : Option Text) (scope : Nat) (n : AbstractNode) : Option Declaration :=
  if n.head.kind = .variableDeclarator then
    (Draft.declared? n.head).map fun name ↦ ⟨.variableKind, name, n.head.span, [], keyword, scope⟩
  else none

/-- The variable of a loop that declares an identifier. -/
def loopVariable? (scope : Nat) (h : NodeHead) : Option Declaration := do
  let keyword ← h.keyword
  let target ← h.roles.target
  let name ← target.identifier?
  return ⟨.variableKind, name, target.span, [], some keyword, scope⟩

/-- The import from a module that is named by a literal. -/
def import? (scope : Nat) (h : NodeHead) : Option Declaration := do
  let source ← h.roles.source
  if source.kind = .string then
    some ⟨.importKind, source.text.trimWhere Draft.isQuote, h.span, [], none, scope⟩
  else none

/-- The call of an identifier within a function. -/
def call? (c : Context) (h : NodeHead) : Option (Text × Text) := do
  let caller ← c.enclosing
  let callee ← h.roles.callee
  let name ← callee.identifier?
  return (caller, name)

/-- What a node declares. -/
def declarationsOf (c : Context) (h : NodeHead) (children : List AbstractNode) :
    List Declaration :=
  match h.kind with
  | .functionDeclaration | .functionLiteral =>
    [⟨.functionKind, functionName c h, h.span, h.parameters.map Text.collapse, none, c.scope⟩]
  | .classDeclaration => [⟨.classKind, Draft.declaredName h, h.span, [], none, c.scope⟩]
  | .variableDeclaration => children.filterMap (declarator? h.keyword c.scope)
  | .loopDeclaration => (loopVariable? c.scope h).toList
  | .importDeclaration => (import? c.scope h).toList
  | .variableDeclarator | .call | .identifier | .string | .other => []

/-- What a node adds by itself. -/
def ofNode (c : Context) (h : NodeHead) (children : List AbstractNode) : Findings where
  declarations := declarationsOf c h children
  calls := if h.kind = .call then (call? c h).toList else []
  scopes := if h.kind.opensScope then 1 else 0

/-- What the children of a node inherit, if some scopes have been opened before. -/
def inherited (c : Context) (scopes : Nat) (h : NodeHead) : Context where
  enclosing := if h.kind.isFunction then some (functionName c h) else c.enclosing
  scope := if h.kind.opensScope then scopes + 1 else c.scope
  offered := if h.kind = .variableDeclarator then Draft.declared? h else none

/-! ### Trees -/

mutual

/-- What a tree adds: first its root, then the trees below it from left to right. -/
def ofTree (c : Context) (scopes : Nat) : AbstractNode → Findings
  | .node h cs =>
    let own := ofNode c h cs
    own ++ ofTrees (inherited c scopes h) (scopes + own.scopes) cs

/-- What several trees add, from left to right. -/
def ofTrees (c : Context) (scopes : Nat) : List AbstractNode → Findings
  | [] => empty
  | n :: ns =>
    let first := ofTree c scopes n
    first ++ ofTrees c (scopes + first.scopes) ns

end

/-! ### Drafts of findings -/

/-- The draft that findings amount to. -/
def draft (f : Findings) : Draft := ⟨f.inventory, f.declarations.length, f.scopes⟩

theorem draft_empty : draft empty = .empty := rfl

/-- The next declaration gets the number of those before it. -/
theorem entities_append_declaring (f : Findings) (d : Declaration) :
    entities (f ++ declaring [d]) = f.entities ++ [d.entity f.declarations.length] := by
  simp [entities, List.mapIdx_append]

/-- An entity is put at the end of the list of its kind. -/
theorem add_draft (f : Findings) (d : Declaration) :
    f.draft.add (d.entity f.declarations.length) = (f ++ declaring [d]).draft := by
  have hentities := entities_append_declaring f d
  cases hk : d.kind <;> simp [Draft.add, draft, inventory, hentities, Declaration.entity, hk]

theorem openScope_draft (f : Findings) : f.draft.openScope = (f ++ opening).draft := by
  simp [Draft.openScope, draft, inventory, entities, opening]

theorem addCall_draft (f : Findings) (caller callee : Text) :
    f.draft.addCall caller callee = (f ++ calling [(caller, callee)]).draft := by
  simp [Draft.addCall, draft, inventory, entities, calling, CallGraph.recordAll]

theorem addFunction_draft (f : Findings) (h : NodeHead) (name : Text) (scope : Nat) :
    f.draft.addFunction h name scope = (f ++ declaring
      [⟨.functionKind, name, h.span, h.parameters.map Text.collapse, none, scope⟩]).draft :=
  add_draft f ⟨.functionKind, name, h.span, h.parameters.map Text.collapse, none, scope⟩

theorem addVariable_draft (f : Findings) (name : Text) (span : Span) (scope : Nat)
    (keyword : Option Text) :
    f.draft.addVariable name span scope keyword =
      (f ++ declaring [⟨.variableKind, name, span, [], keyword, scope⟩]).draft :=
  add_draft f ⟨.variableKind, name, span, [], keyword, scope⟩

/-- The declarators are gone through from left to right. -/
theorem addDeclarators_draft (f : Findings) (scope : Nat) (keyword : Option Text)
    (cs : List AbstractNode) :
    f.draft.addDeclarators scope keyword cs =
      (f ++ declaring (cs.filterMap (declarator? keyword scope))).draft := by
  induction cs generalizing f with
  | nil => rw [Draft.addDeclarators, List.filterMap_nil, declaring_nil, append_empty]
  | cons n ns ih =>
    rw [Draft.addDeclarators]
    by_cases hk : n.head.kind = .variableDeclarator
    · rw [if_pos hk]
      cases hd : Draft.declared? n.head with
      | none =>
        have hn : declarator? keyword scope n = none := by simp [declarator?, hk, hd]
        rw [List.filterMap_cons_none hn]
        exact ih f
      | some name =>
        have hn : declarator? keyword scope n =
            some ⟨.variableKind, name, n.head.span, [], keyword, scope⟩ := by
          simp [declarator?, hk, hd]
        rw [List.filterMap_cons_some hn, declaring_cons, ← append_assoc, ← ih, ← addVariable_draft]
    · have hn : declarator? keyword scope n = none := by simp [declarator?, hk]
      rw [if_neg hk, List.filterMap_cons_none hn]
      exact ih f

theorem addLoopVariable_draft (f : Findings) (h : NodeHead) (scope : Nat) :
    f.draft.addLoopVariable h scope = (f ++ declaring (loopVariable? scope h).toList).draft := by
  unfold Draft.addLoopVariable loopVariable?
  cases h.keyword with
  | none => simp [declaring_nil, append_empty]
  | some keyword =>
    cases h.roles.target with
    | none => simp [declaring_nil, append_empty]
    | some target =>
      cases hname : target.identifier? with
      | none => simp [hname, declaring_nil, append_empty]
      | some name => simp [hname, addVariable_draft]

theorem addImport_draft (f : Findings) (h : NodeHead) (scope : Nat) :
    f.draft.addImport h scope = (f ++ declaring (import? scope h).toList).draft := by
  unfold Draft.addImport import?
  cases h.roles.source with
  | none => simp [declaring_nil, append_empty]
  | some source =>
    by_cases hk : source.kind = .string
    · simp only [hk, if_true, Option.bind_eq_bind, Option.bind_some, Option.toList_some]
      exact add_draft f
        ⟨.importKind, source.text.trimWhere Draft.isQuote, h.span, [], none, scope⟩
    · simp [hk, declaring_nil, append_empty]

/-- A visit of a function declares it and opens a scope for its children. -/
theorem visitFunction_draft (f : Findings) (c : Context) (h : NodeHead) (name : Text) :
    f.draft.visitFunction c h name = ((f ++ (declaring
      [⟨.functionKind, name, h.span, h.parameters.map Text.collapse, none, c.scope⟩] ++
        opening)).draft, ⟨some name, f.scopes + 1, none⟩) := by
  simp only [Draft.visitFunction, addFunction_draft, openScope_draft, append_assoc]
  rfl

/-- A visit of a class declares it and opens a scope for its children. -/
theorem visitClass_draft (f : Findings) (c : Context) {h : NodeHead} (cs : List AbstractNode)
    (hk : h.kind = .classDeclaration) :
    f.draft.visit c h cs = ((f ++ (declaring
      [⟨.classKind, Draft.declaredName h, h.span, [], none, c.scope⟩] ++ opening)).draft,
        ⟨c.enclosing, f.scopes + 1, none⟩) := by
  have hadd := add_draft f ⟨.classKind, Draft.declaredName h, h.span, [], none, c.scope⟩
  rw [← append_assoc, ← openScope_draft, ← hadd]
  simp only [Draft.visit, hk]
  rfl

/-- A visit of a call records it, if it is one of an identifier within a function. -/
theorem visitCall_draft (f : Findings) (c : Context) {h : NodeHead} (cs : List AbstractNode)
    (hk : h.kind = .call) :
    f.draft.visit c h cs =
      ((f ++ calling (call? c h).toList).draft, { c with offered := none }) := by
  have hnone : f ++ calling [] = f := append_empty f
  rw [Draft.visit_of_call f.draft c cs hk, call?]
  cases c.enclosing with
  | none => simp [hnone]
  | some caller =>
    cases h.roles.callee with
    | none => simp [hnone]
    | some callee =>
      cases hname : callee.identifier? with
      | none => simp [hname, hnone]
      | some name => simp [hname, addCall_draft]

/-- A visit of a node adds what the node adds by itself, and hands down what its children inherit. -/
theorem visit_draft (f : Findings) (c : Context) (h : NodeHead) (cs : List AbstractNode) :
    f.draft.visit c h cs = ((f ++ ofNode c h cs).draft, inherited c f.scopes h) := by
  -- First the kinds that open a scope, then those that only add something, then the rest.
  cases hk : h.kind with
  | functionDeclaration | functionLiteral =>
    have hvisit : f.draft.visit c h cs = f.draft.visitFunction c h (functionName c h) := by
      simp [Draft.visit, functionName, hk]
    have hnode : ofNode c h cs = declaring [⟨.functionKind, functionName c h, h.span,
        h.parameters.map Text.collapse, none, c.scope⟩] ++ opening := by
      ext1 <;> simp [ofNode, declarationsOf, opening, hk, NodeKind.opensScope, NodeKind.isFunction]
    have hinherited : inherited c f.scopes h = ⟨some (functionName c h), f.scopes + 1, none⟩ := by
      simp [inherited, hk, NodeKind.opensScope, NodeKind.isFunction]
    rw [hvisit, visitFunction_draft, hnode, hinherited]
  | classDeclaration =>
    have hnode : ofNode c h cs = declaring
        [⟨.classKind, Draft.declaredName h, h.span, [], none, c.scope⟩] ++ opening := by
      ext1 <;> simp [ofNode, declarationsOf, opening, hk, NodeKind.opensScope, NodeKind.isFunction]
    have hinherited : inherited c f.scopes h = ⟨c.enclosing, f.scopes + 1, none⟩ := by
      simp [inherited, hk, NodeKind.opensScope, NodeKind.isFunction]
    rw [visitClass_draft f c cs hk, hnode, hinherited]
  | call =>
    rw [visitCall_draft f c cs hk]
    simp [ofNode, declarationsOf, calling, inherited, hk, NodeKind.opensScope, NodeKind.isFunction]
  | variableDeclaration | loopDeclaration | importDeclaration =>
    simp only [Draft.visit, hk, addDeclarators_draft, addLoopVariable_draft, addImport_draft]
    simp [ofNode, declarationsOf, declaring, inherited, hk, NodeKind.opensScope,
      NodeKind.isFunction]
  | variableDeclarator | identifier | string | other =>
    have hnone : ofNode c h cs = empty := by
      simp [ofNode, declarationsOf, hk, NodeKind.opensScope, NodeKind.isFunction, empty]
    rw [hnone, append_empty]
    simp [Draft.visit, inherited, hk, NodeKind.opensScope, NodeKind.isFunction]

mutual

/-- A visit of a tree adds to the findings what the tree adds. -/
theorem visitTree_draft (f : Findings) (c : Context) :
    ∀ n, f.draft.visitTree c n = (f ++ ofTree c f.scopes n).draft
  | .node h cs => by
    rw [Draft.visitTree, visit_draft, visitTrees_draft, ofTree, append_assoc]
    rfl

/-- A visit of several trees adds to the findings what each of them adds. -/
theorem visitTrees_draft (f : Findings) (c : Context) :
    ∀ ns, f.draft.visitTrees c ns = (f ++ ofTrees c f.scopes ns).draft
  | [] => by rw [Draft.visitTrees, ofTrees, append_empty]
  | n :: ns => by
    rw [Draft.visitTrees, visitTree_draft, visitTrees_draft, ofTrees, append_assoc]
    rfl

end

/-- A visit of a tree leaves the inventory of what the recursion finds. -/
theorem inventory_visitTree (root : AbstractNode) :
    (Draft.empty.visitTree .root root).inventory = (ofTree .root 0 root).inventory := by
  rw [← draft_empty, visitTree_draft, empty_append]
  rfl

end Findings

/-- The walk with a stack is the recursion over the tree. The inventory of a tree is that of what the
recursion finds: the node first, then its children from left to right, to which the function and the
scope around them and, only from a declarator that binds an identifier, the name it offers are handed
down. -/
theorem ofTree_eq_inventory_findings (root : AbstractNode) :
    ofTree root = (Findings.ofTree .root 0 root).inventory := by
  rw [ofTree_eq_visitTree, Findings.inventory_visitTree]

end CodeAtlas.Inventory
