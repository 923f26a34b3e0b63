import CodeAtlas.Inventory.Basic
import CodeAtlas.Syntax.Abstract
import CodeAtlas.Text.Blank

/-!
# Taking an inventory

`Inventory.ofTree` visits the nodes of an abstract tree once, each before its children, with an
explicit stack of nodes that are still to be visited. What a node inherits travels with it: the
function around it, the number of the scope around it and, from a declarator to its children, the
name that an unnamed function takes. `Draft.visit` is what one node adds. The measure of the stack is
the number of nodes on it and below, by `weight_children_lt`.
-/

namespace CodeAtlas

open Syntax

namespace Inventory

/-- The name of a function or a class without one. -/
def anonymous : Text := Text.ofString "anonymous"

/-- What a node inherits. -/
structure Context where
  /-- The name of the function around the node. -/
  enclosing : Option Text
  /-- The number of the scope around the node. -/
  scope : Nat
  /-- The name that a declarator around the node offers to a function. -/
  offered : Option Text
  deriving DecidableEq, Inhabited

namespace Context

/-- What the root inherits. -/
def root : Context := ⟨none, 0, none⟩

end Context

/-- An inventory in the making, with the numbers of entities and scopes so far. -/
structure Draft where
  inventory : Inventory
  ordinal : Nat
  scopes : Nat
  deriving DecidableEq, Inhabited

namespace Draft

/-- Nothing has been visited. -/
def empty : Draft := ⟨Inventory.empty, 0, 0⟩

/-- The identifier of an entity: its kind, its name, its line and its number. -/
def identifier (kind : EntityKind) (name : Text) (line : Int) (ordinal : Nat) : Text :=
  Text.ofString kind.name ++ Text.ofString "_" ++ name ++ Text.ofString "_" ++ Text.ofInt line ++
    Text.ofString "_" ++ Text.ofNat ordinal

/-- The next entity of a draft. -/
def entity (d : Draft) (kind : EntityKind) (name : Text) (span : Span) (scope : Nat)
    (parameters : List Text) (keyword : Option Text) : Entity where
  id := identifier kind name span.start.line d.ordinal
  kind := kind
  name := name
  span := some span
  parameters := parameters
  keyword := keyword
  scope := scope

/-- Puts an entity at the end of the list of its kind. -/
def add (d : Draft) (e : Entity) : Draft :=
  let i := d.inventory
  let i := match e.kind with
    | .functionKind => { i with functions := i.functions ++ [e] }
    | .variableKind => { i with vars := i.vars ++ [e] }
    | .classKind => { i with classes := i.classes ++ [e] }
    | .importKind => { i with imports := i.imports ++ [e] }
  { d with inventory := i, ordinal := d.ordinal + 1 }

/-- Opens a scope, whose number is that of the scopes opened. -/
def openScope (d : Draft) : Draft := { d with scopes := d.scopes + 1 }

/-- Adds a function. The parameters are written on one line. -/
def addFunction (d : Draft) (h : NodeHead) (name : Text) (scope : Nat) : Draft :=
  d.add (d.entity .functionKind name h.span scope (h.parameters.map Text.collapse) none)

/-- Adds a variable. -/
def addVariable (d : Draft) (name : Text) (span : Span) (scope : Nat) (keyword : Option Text) :
    Draft :=
  d.add (d.entity .variableKind name span scope [] keyword)

/-- Adds a call. -/
def addCall (d : Draft) (caller callee : Text) : Draft :=
  { d with inventory.calls := d.inventory.calls.record caller callee }

/-- The name that a declarator binds, if it is an identifier. -/
def declared? (h : NodeHead) : Option Text := h.roles.name.bind Part.identifier?

/-- Adds a variable for each declarator that binds an identifier. -/
def addDeclarators (d : Draft) (scope : Nat) (keyword : Option Text) :
    List AbstractNode → Draft
  | [] => d
  | c :: cs =>
    if c.head.kind = .variableDeclarator then
      match declared? c.head with
      | some name => addDeclarators (d.addVariable name c.head.span scope keyword) scope keyword cs
      | none => addDeclarators d scope keyword cs
    else addDeclarators d scope keyword cs

/-- Adds the variable of a loop that declares an identifier. -/
def addLoopVariable (d : Draft) (h : NodeHead) (scope : Nat) : Draft :=
  match h.keyword, h.roles.target with
  | some keyword, some target =>
    match target.identifier? with
    | some name => d.addVariable name target.span scope (some keyword)
    | none => d
  | _, _ => d

/-- The quotes that a module's name may stand in. -/
def isQuote (c : CodePoint) : Bool := c.val == 0x27 || c.val == 0x22 || c.val == 0x60

/-- Adds an import from a module that is named by a literal. -/
def addImport (d : Draft) (h : NodeHead) (scope : Nat) : Draft :=
  match h.roles.source with
  | some source =>
    if source.kind = .string then
      let name := source.text.trimWhere isQuote
      d.add (d.entity .importKind name h.span scope [] none)
    else d
  | none => d

/-- The name of a declared function or class. -/
def declaredName (h : NodeHead) : Text :=
  match h.roles.name with
  | some part => part.text
  | none => anonymous

/-- The name of a function without one of its own: what is offered, unless that is empty. -/
def literalName (c : Context) : Text :=
  match c.offered with
  | some (x :: xs) => x :: xs
  | _ => anonymous

/-- What a function adds; its children stand in a scope of their own. -/
def visitFunction (d : Draft) (c : Context) (h : NodeHead) (name : Text) : Draft × Context :=
  let d := (d.addFunction h name c.scope).openScope
  (d, ⟨some name, d.scopes, none⟩)

/-- What a node adds to a draft, and what its children inherit. -/
def visit (d : Draft) (c : Context) (h : NodeHead) (children : List AbstractNode) :
    Draft × Context :=
  let inherited : Context := { c with offered := none }
  match h.kind with
  | .functionDeclaration => d.visitFunction c h (declaredName h)
  | .functionLiteral => d.visitFunction c h (literalName c)
  | .variableDeclaration => (d.addDeclarators c.scope h.keyword children, inherited)
  | .loopDeclaration => (d.addLoopVariable h c.scope, inherited)
  | .variableDeclarator => (d, { c with offered := declared? h })
  | .classDeclaration =>
    let d := (d.add (d.entity .classKind (declaredName h) h.span c.scope [] none)).openScope
    (d, { inherited with scope := d.scopes })
  | .importDeclaration => (d.addImport h c.scope, inherited)
  | .call =>
    match c.enclosing, h.roles.callee.bind Part.identifier? with
    | some caller, some callee => (d.addCall caller callee, inherited)
    | _, _ => (d, inherited)
  | .identifier | .string | .other => (d, inherited)

end Draft

/-- A node that is still to be visited, with what it inherits. -/
structure Frame where
  node : AbstractNode
  context : Context

mutual

/-- The number of nodes in a tree. -/
def weight : AbstractNode → Nat
  | .node _ cs => weightAll cs + 1

/-- The number of nodes in several trees. -/
def weightAll : List AbstractNode → Nat
  | [] => 0
  | c :: cs => weight c + weightAll cs

end

/-- The number of nodes on a stack and below. -/
def stackWeight (stack : List Frame) : Nat := weightAll (stack.map (·.node))

theorem weightAll_append (as bs : List AbstractNode) :
    weightAll (as ++ bs) = weightAll as + weightAll bs := by
  induction as with
  | nil => simp [weightAll]
  | cons a as ih => simp [weightAll, ih, Nat.add_assoc]

/-- Children weigh less than their parent. -/
theorem weight_children_lt (n : AbstractNode) : weightAll n.children < weight n := by
  cases n with
  | node h cs => simp [weight, AbstractNode.children]

/-- Visits the nodes on a stack, the first one first, and all below them. -/
def walk (d : Draft) : List Frame → Draft
  | [] => d
  | f :: stack =>
    let visited := d.visit f.context f.node.head f.node.children
    walk visited.1 (f.node.children.map (⟨·, visited.2⟩) ++ stack)
termination_by stack => stackWeight stack
decreasing_by
  have h := weight_children_lt f.node
  simp only [stackWeight, List.map_append, List.map_map, List.map_cons, weightAll_append,
    weightAll] at h ⊢
  have e : f.node.children.map ((·.node) ∘ fun n ↦ (⟨n, visited.2⟩ : Frame)) = f.node.children := by
    simp [Function.comp_def]
  rw [e]
  omega

/-- The inventory of a tree. -/
def ofTree (root : AbstractNode) : Inventory := (walk Draft.empty [⟨root, .root⟩]).inventory

end Inventory

end CodeAtlas
