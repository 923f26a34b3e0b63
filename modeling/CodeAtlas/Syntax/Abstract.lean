import CodeAtlas.Syntax.Location
import CodeAtlas.Text.Basic

/-!
# Abstract trees

What a reader of declarations may ask of a node, whatever grammar it comes from: its kind, where it
stands, the keyword it declares with, the parts that play a role in it, the texts of its parameters
and its children.
-/

namespace CodeAtlas.Syntax

/-- The kinds of nodes that matter for declarations and calls. -/
inductive NodeKind where
  | functionDeclaration
  | functionLiteral
  | variableDeclaration
  | variableDeclarator
  | loopDeclaration
  | classDeclaration
  | importDeclaration
  | call
  | identifier
  | string
  | other
  deriving DecidableEq, Inhabited

namespace NodeKind

/-- All kinds. -/
def all : List NodeKind :=
  [functionDeclaration, functionLiteral, variableDeclaration, variableDeclarator, loopDeclaration,
    classDeclaration, importDeclaration, call, identifier, string, other]

/-- The name of a kind. -/
def name : NodeKind → String
  | functionDeclaration => "function_declaration"
  | functionLiteral => "function_literal"
  | variableDeclaration => "variable_declaration"
  | variableDeclarator => "variable_declarator"
  | loopDeclaration => "loop_declaration"
  | classDeclaration => "class_declaration"
  | importDeclaration => "import_declaration"
  | call => "call"
  | identifier => "identifier"
  | string => "string"
  | other => "other"

/-- The kind with a name. -/
def ofName? (s : String) : Option NodeKind := all.find? (·.name = s)

/-- Every kind is listed. -/
theorem mem_all (k : NodeKind) : k ∈ all := by cases k <;> decide

/-- Whether a node of this kind is a function. -/
def isFunction (k : NodeKind) : Bool := k = functionDeclaration || k = functionLiteral

/-- Whether a node of this kind opens a scope. -/
def opensScope (k : NodeKind) : Bool := k.isFunction || k = classDeclaration

end NodeKind

/-- A part that plays a role in a node. -/
structure Part where
  kind : NodeKind
  text : Text
  span : Span
  deriving DecidableEq, Inhabited

namespace Part

/-- The text of a part that is an identifier. -/
def identifier? (p : Part) : Option Text := if p.kind = .identifier then some p.text else none

end Part

/-- The parts of a node by the roles that they play. -/
structure Roles where
  name : Option Part
  value : Option Part
  callee : Option Part
  source : Option Part
  target : Option Part
  deriving DecidableEq, Inhabited

namespace Roles

/-- No role is played. -/
def none : Roles := ⟨.none, .none, .none, .none, .none⟩

end Roles

/-- A node without its children. -/
structure NodeHead where
  kind : NodeKind
  span : Span
  keyword : Option Text
  roles : Roles
  /-- The texts of the parameters of a function. -/
  parameters : List Text
  deriving DecidableEq, Inhabited

/-- A node of an abstract tree. -/
inductive AbstractNode where
  | node (head : NodeHead) (children : List AbstractNode)
  deriving Inhabited

namespace AbstractNode

/-- The node without its children. -/
def head : AbstractNode → NodeHead
  | node h _ => h

/-- The children of the node. -/
def children : AbstractNode → List AbstractNode
  | node _ cs => cs

mutual

/-- The heads of a node and of all below it, each before those of its children. -/
def heads : AbstractNode → List NodeHead
  | node h cs => h :: headsOfAll cs

/-- The heads of several nodes and of all below them. -/
def headsOfAll : List AbstractNode → List NodeHead
  | [] => []
  | c :: cs => heads c ++ headsOfAll cs

end

/-- The heads of several nodes are those of each, one node after the other. -/
theorem headsOfAll_eq_flatMap (cs : List AbstractNode) : headsOfAll cs = cs.flatMap heads := by
  induction cs with
  | nil => simp [headsOfAll]
  | cons c cs ih => simp [headsOfAll, ih]

end AbstractNode

end CodeAtlas.Syntax
