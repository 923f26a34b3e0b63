import CodeAtlas.Proofs.Syntax.Nodes
import Mathlib.Logic.Relation

/-!
# Changes of a concrete tree

A change is made at one node, and the rest of the tree stays as it is (`Changed`). There are two kinds
of changes here: a comment is put between the children of a node (`Comments`), or a node is put into
grouping parentheses, which take over its role (`Groups`). A node is not put into parentheses where a
function takes it as it stands (`isFixed`), which depends on the nodes around it. A place is the list of
a node and of those around it, the nearest first.
-/

namespace CodeAtlas.Syntax.ConcreteNode

/-! ### Places -/

/-- Whether the node at a place is the parameter list of a function. -/
def isParameterList : List ConcreteNode → Bool
  | n :: f :: _ => n.head.field = some (Text.ofString "parameters") && f.nodeKind.isFunction
  | _ => false

/-- Whether the node at a place is the parameter of a function that has no parameter list. -/
def isLoneParameter : List ConcreteNode → Bool
  | n :: f :: _ =>
    n.head.field = some (Text.ofString "parameter") && f.nodeKind.isFunction &&
      (f.child? (Text.ofString "parameters")).isNone
  | _ => false

/-- Whether a node is a parameter with what the grammar puts around its pattern. -/
def isParameter (n : ConcreteNode) : Bool :=
  n.isA "required_parameter" || n.isA "optional_parameter"

/-- Whether the node at a place stands in a parameter list. -/
def isListed : List ConcreteNode → Bool
  | n :: around => n.head.named && isParameterList around
  | [] => false

/-- Whether the node at a place is the pattern of a parameter in a list. -/
def isPattern : List ConcreteNode → Bool
  | n :: p :: around =>
    n.head.field = some (Text.ofString "pattern") && p.isParameter && isListed (p :: around)
  | _ => false

/-- Whether the node at a place is what a parameter in a list gives a default value to. -/
def isDefaulted : List ConcreteNode → Bool
  | n :: p :: around =>
    n.head.field = some (Text.ofString "left") && p.isA "assignment_pattern" &&
      (isListed (p :: around) || isPattern (p :: around))
  | _ => false

/-- Whether a function takes the node at a place as it stands. -/
def isFixed (place : List ConcreteNode) : Bool :=
  isParameterList place || isLoneParameter place || isListed place || isPattern place ||
    isDefaulted place

/-- Whether a node is written like a keyword that declares variables. -/
def isKeyword (n : ConcreteNode) : Bool := declarationKeywords.any n.isA

theorem isKeyword_eq (n : ConcreteNode) :
    n.isKeyword = declarationKeywords.any fun k ↦ n.head.kind = Text.ofString k := rfl

/-! ### Changes at a node -/

/-- A comment is a named leaf that plays no role. -/
structure IsComment (n : ConcreteNode) : Prop where
  kind : n.head.kind = Text.ofString "comment"
  named : n.head.named = true
  field : n.head.field = none
  children : n.children = []

/-- A comment is put between the children of a node, whatever stands around it. -/
inductive Comments (around : List ConcreteNode) : ConcreteNode → ConcreteNode → Prop
  | put {h before c after} : IsComment c →
    Comments around (node h (before ++ after)) (node h (before ++ c :: after))

/-- A comment is put between the children of a node that is a grouping before and after, or neither
before nor after. For the root there is no such condition. -/
structure CommentsApart (around : List ConcreteNode) (n m : ConcreteNode) : Prop where
  comments : Comments around n m
  isGrouping : around ≠ [] → m.isGrouping = n.isGrouping

/-- The node in another role. -/
def inRole (role : Option Text) (n : ConcreteNode) : ConcreteNode :=
  node { n.head with field := role } n.children

/-- A node in grouping parentheses, which take over its role. Where the parentheses stand and what role
the node has within them does not matter. -/
def grouped (h opening closing : ConcreteHead) (role : Option Text) (n : ConcreteNode) :
    ConcreteNode :=
  node
    { h with kind := Text.ofString "parenthesized_expression", named := true, field := n.head.field }
    [node { opening with kind := Text.ofString "(", named := false } [], n.inRole role,
      node { closing with kind := Text.ofString ")", named := false } []]

/-- A named node is put into grouping parentheses, unless it is the root, a keyword, or fixed. -/
structure Groups (around : List ConcreteNode) (n m : ConcreteNode) : Prop where
  inner : around ≠ []
  named : n.head.named = true
  keyword : n.isKeyword = false
  fixed : isFixed (n :: around) = false
  grouped : ∃ h opening closing role, m = n.grouped h opening closing role

/-! ### Changes of a tree -/

/-- A change of the node at a place, or of one below it. -/
inductive Changed (R : List ConcreteNode → ConcreteNode → ConcreteNode → Prop) :
    List ConcreteNode → ConcreteNode → ConcreteNode → Prop
  | here {around n m} : R around n m → Changed R around n m
  | within {around h before c d after} :
    Changed R (node h (before ++ c :: after) :: around) c d →
      Changed R around (node h (before ++ c :: after)) (node h (before ++ d :: after))

/-- A tree becomes another by any number of changes, one after the other. -/
abbrev Becomes (R : List ConcreteNode → ConcreteNode → ConcreteNode → Prop) :
    ConcreteNode → ConcreteNode → Prop :=
  Relation.ReflTransGen (Changed R [])

theorem Changed.mono {R S : List ConcreteNode → ConcreteNode → ConcreteNode → Prop}
    (hRS : ∀ around n m, R around n m → S around n m) {around : List ConcreteNode}
    {n m : ConcreteNode} (h : Changed R around n m) : Changed S around n m := by
  induction h with
  | here h => exact .here (hRS _ _ _ h)
  | within _ ih => exact .within ih

/-- If a change is of a kind wherever it is made, then so are all changes of a tree. -/
theorem Becomes.mono {R S : List ConcreteNode → ConcreteNode → ConcreteNode → Prop}
    (hRS : ∀ around n m, R around n m → S around n m) {n m : ConcreteNode} (h : Becomes R n m) :
    Becomes S n m :=
  Relation.ReflTransGen.mono (fun _ _ ↦ Changed.mono hRS) n m h

/-- A node remains what it is, a grouping or none, if one of its children is replaced. -/
theorem isGrouping_replaced {c d : ConcreteNode} (h : ConcreteHead)
    (before after : List ConcreteNode) (hnamed : d.head.named = c.head.named) :
    (node h (before ++ d :: after)).isGrouping = (node h (before ++ c :: after)).isGrouping := by
  have hlength : (node h (before ++ d :: after)).namedChildren.length =
      (node h (before ++ c :: after)).namedChildren.length := by
    rw [namedChildren, namedChildren, children, children, List.filter_append, List.filter_append,
      List.filter_cons, List.filter_cons, hnamed]
    split <;> simp
  rw [isGrouping, isGrouping, hlength]
  rfl

/-! ### Nodes in another role and in parentheses -/

@[simp]
theorem isGrouping_inRole (role : Option Text) (n : ConcreteNode) :
    (n.inRole role).isGrouping = n.isGrouping := rfl

/-- A role does not matter for the view of a node. -/
theorem view_inRole (octets : List UInt8) (role : Option Text) (n : ConcreteNode) :
    (n.inRole role).view octets = n.view octets := by
  cases n with
  | node h cs => rfl

/-- A role does not matter for what is seen in a node. -/
theorem seen_inRole (role : Option Text) (n : ConcreteNode) :
    seen (n.inRole role) = if n.isGrouping then seen n else n.inRole role := by
  by_cases hn : n.isGrouping = true
  · obtain ⟨before, c, after, he⟩ := exists_encloses hn
    have he' : Encloses (n.inRole role) before c after :=
      ⟨he.children, he.before, he.named, he.after⟩
    have hn' : (n.inRole role).isGrouping = true := (isGrouping_inRole role n).trans hn
    rw [if_pos hn, seen_of_isGrouping hn he, seen_of_isGrouping hn' he']
  · rw [if_neg hn, seen_of_not_isGrouping (by simpa using hn)]

/-- Through grouping parentheses the node within them is seen. -/
theorem seen_grouped (h opening closing : ConcreteHead) (role : Option Text) {n : ConcreteNode}
    (hn : n.head.named = true) :
    seen (n.grouped h opening closing role) = seen (n.inRole role) := by
  have he : Encloses (n.grouped h opening closing role)
      [node { opening with kind := Text.ofString "(", named := false } []] (n.inRole role)
      [node { closing with kind := Text.ofString ")", named := false } []] :=
    ⟨rfl, by simp [head], hn, by simp [head]⟩
  refine seen_of_isGrouping ?_ he
  rw [isGrouping, he.namedChildren]
  simp [grouped, isA, head]

end CodeAtlas.Syntax.ConcreteNode
