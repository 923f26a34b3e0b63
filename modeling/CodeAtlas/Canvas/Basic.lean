import CodeAtlas.Inventory.Basic

/-!
# The canvas

What a graph canvas shows of an inventory: a node for each function, variable and class, and an edge
for each call between functions. `Canvas.nodes` refuses an entity of a kind that is never drawn.
-/

namespace CodeAtlas.Canvas

/-- A place on the canvas. -/
structure Point where
  x : Int
  y : Int
  deriving DecidableEq, Inhabited

namespace Point

/-- Where a node is before it has been placed. -/
def origin : Point := ⟨0, 0⟩

end Point

/-- The kinds of nodes. -/
inductive NodeKind where
  | functionNode
  | variableNode
  | classNode
  deriving DecidableEq, Inhabited

namespace NodeKind

/-- The name of a kind. -/
def name : NodeKind → String
  | functionNode => "function"
  | variableNode => "variable"
  | classNode => "class"

/-- How the entities of a kind are drawn; imports are not. -/
def ofEntity? : EntityKind → Option NodeKind
  | .functionKind => some functionNode
  | .variableKind => some variableNode
  | .classKind => some classNode
  | .importKind => none

end NodeKind

/-- The colours and the border of a node. -/
structure NodeStyle where
  background : Text
  border : Text
  borderWidth : Int
  deriving DecidableEq, Inhabited

namespace NodeStyle

/-- The style of the nodes of a kind. -/
def ofKind : NodeKind → NodeStyle
  | .functionNode => ⟨Text.ofString "#e3f2fd", Text.ofString "#2196f3", 2⟩
  | .variableNode => ⟨Text.ofString "#f3e5f5", Text.ofString "#9c27b0", 1⟩
  | .classNode => ⟨Text.ofString "#fff3e0", Text.ofString "#ff9800", 2⟩

end NodeStyle

/-- What a node tells of its entity. -/
structure NodeData where
  name : Text
  parameters : Option (List Text)
  scope : Option Int
  line : Option Int
  deriving DecidableEq, Inhabited

/-- A node of the canvas. -/
structure Node where
  id : Text
  kind : NodeKind
  label : Text
  data : NodeData
  position : Point
  style : NodeStyle
  deriving DecidableEq, Inhabited

/-- The colour and the width of an edge. -/
structure EdgeStyle where
  stroke : Text
  width : Int
  deriving DecidableEq, Inhabited

/-- An edge of the canvas. -/
structure Edge where
  id : Text
  source : Text
  target : Text
  label : Text
  kind : Text
  animated : Bool
  style : EdgeStyle
  deriving DecidableEq, Inhabited

/-- An entity of a kind that is never drawn. -/
structure Undrawable where
  kind : EntityKind
  deriving DecidableEq

namespace Undrawable

/-- An entity that cannot be drawn, in words. -/
def message (u : Undrawable) : Text :=
  Text.ofString "<EntityKind." ++ Text.ofString (u.kind.name.toUpper) ++ Text.ofString ": '" ++
    Text.ofString u.kind.name ++ Text.ofString "'>"

end Undrawable

/-- The label of a function: its name and its parameters. -/
def functionLabel (e : Entity) : Text :=
  e.name ++ Text.ofString "(" ++ (Text.ofString ", ").intercalate e.parameters ++ Text.ofString ")"

/-- The label of a variable: its name and its keyword, if it has one. -/
def variableLabel (e : Entity) : Text := e.name ++ Text.ofString ": " ++ e.keyword.getD []

/-- The label of a class. -/
def classLabel (e : Entity) : Text := Text.ofString "class " ++ e.name

/-- The node of an entity, in the style of its kind. -/
def node (e : Entity) (label : Text) (data : NodeData) : Except Undrawable Node :=
  match NodeKind.ofEntity? e.kind with
  | some kind => .ok ⟨e.id, kind, label, data, .origin, NodeStyle.ofKind kind⟩
  | none => .error ⟨e.kind⟩

/-- The node of a listed function. -/
def functionNode (e : Entity) : Except Undrawable Node :=
  node e (functionLabel e) ⟨e.name, some e.parameters, none, e.line⟩

/-- The node of a listed variable. -/
def variableNode (e : Entity) : Except Undrawable Node :=
  node e (variableLabel e) ⟨e.name, none, some e.scope, e.line⟩

/-- The node of a listed class. -/
def classNode (e : Entity) : Except Undrawable Node :=
  node e (classLabel e) ⟨e.name, none, none, e.line⟩

/-- The nodes of an inventory: functions, then variables, then classes. -/
def nodes (i : Inventory) : Except Undrawable (List Node) := do
  let functions ← i.functions.mapM functionNode
  let vars ← i.vars.mapM variableNode
  let classes ← i.classes.mapM classNode
  return functions ++ vars ++ classes

/-- The edge of the call at a place in the calls of a function. -/
def edge (caller callee : Entity) (index : Nat) : Edge where
  id := Text.ofString "edge_" ++ caller.id ++ Text.ofString "_" ++ callee.id ++
    Text.ofString "_" ++ Text.ofNat index
  source := caller.id
  target := callee.id
  label := Text.ofString "calls"
  kind := Text.ofString "smoothstep"
  animated := true
  style := ⟨Text.ofString "#2196f3", 2⟩

/-- The edges of the calls of one function, those to unknown names left out. -/
def edgesFrom (first : Members Entity) (caller : Entity) (callees : List Text) : List Edge :=
  callees.zipIdx.filterMap fun c ↦ (first.get? c.1).map fun callee ↦ edge caller callee c.2

/-- The edges of an inventory, in the order of the calls. Both ends are the first functions of their
names. -/
def edges (i : Inventory) : List Edge :=
  let first := Inventory.firstOfEach i.functions
  i.calls.flatMap fun c ↦
    match first.get? c.1 with
    | some caller => edgesFrom first caller c.2
    | none => []

end CodeAtlas.Canvas
