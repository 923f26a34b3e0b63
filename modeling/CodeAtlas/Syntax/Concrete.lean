import CodeAtlas.Text.Basic

/-!
# Concrete trees

The tree of a source as the grammar sees it: every token is a node. Positions are octet offsets into
the source. A node is faulty if it was put in, if it could not be read, or if a node below it is.
-/

namespace CodeAtlas.Syntax

/-- A node without its children. -/
structure ConcreteHead where
  kind : Text
  /-- The first octet of the node and the octet after it. -/
  start : Nat
  stop : Nat
  named : Bool
  /-- Whether the node was put in where it is missing. -/
  missing : Bool
  /-- Whether the node holds an error that none of its descendants shows. -/
  flagged : Bool
  /-- The role of the node in its parent. -/
  field : Option Text
  deriving Inhabited, DecidableEq

/-- A node of a concrete tree. -/
inductive ConcreteNode where
  | node (head : ConcreteHead) (children : List ConcreteNode)
  deriving Inhabited

namespace ConcreteNode

/-- The node without its children. -/
def head : ConcreteNode → ConcreteHead
  | node h _ => h

/-- The children of the node. -/
def children : ConcreteNode → List ConcreteNode
  | node _ cs => cs

/-- The kind of a part that could not be read. -/
def errorKind : Text := Text.ofString "ERROR"

/-- Whether the node was put in or could not be read. -/
def isFault (n : ConcreteNode) : Bool := n.head.missing || n.head.kind = errorKind

mutual

/-- Whether the node or one below it is a fault. -/
def hasError : ConcreteNode → Bool
  | node h cs => h.missing || h.flagged || h.kind = errorKind || anyError cs

/-- Whether one of several nodes has an error. -/
def anyError : List ConcreteNode → Bool
  | [] => false
  | c :: cs => c.hasError || anyError cs

end

mutual

/-- The number of nodes in a tree. -/
def weight : ConcreteNode → Nat
  | node _ cs => weightAll cs + 1

/-- The number of nodes in several trees. -/
def weightAll : List ConcreteNode → Nat
  | [] => 0
  | c :: cs => weight c + weightAll cs

end

theorem weightAll_append (as bs : List ConcreteNode) :
    weightAll (as ++ bs) = weightAll as + weightAll bs := by
  induction as with
  | nil => simp [weightAll]
  | cons a as ih => simp [weightAll, ih, Nat.add_assoc]

/-- Children weigh less than their parent. -/
theorem weight_children_lt (n : ConcreteNode) : weightAll n.children < weight n := by
  cases n with
  | node h cs => simp [weight, children]

end ConcreteNode

end CodeAtlas.Syntax
