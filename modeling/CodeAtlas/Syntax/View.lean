import CodeAtlas.Syntax.Abstract
import CodeAtlas.Syntax.Concrete
import CodeAtlas.Text.Utf8

/-!
# The abstract view of a concrete tree

A grouping parenthesis, a `parenthesized_expression` around exactly one named node, is seen through:
`ConcreteNode.seen` is the node that stands for another one. `ConcreteNode.view` replaces every child
by the node seen and asks each node for what an abstract node tells. `viewSeen_eq` says that viewing
through parentheses is viewing what is seen.
-/

namespace CodeAtlas.Syntax

/-- The kinds of named nodes by their names in the grammar. -/
def kindNames : List (String × NodeKind) :=
  [("function_declaration", .functionDeclaration),
    ("generator_function_declaration", .functionDeclaration),
    ("arrow_function", .functionLiteral),
    ("function_expression", .functionLiteral),
    ("function", .functionLiteral),
    ("generator_function", .functionLiteral),
    ("lexical_declaration", .variableDeclaration),
    ("variable_declaration", .variableDeclaration),
    ("variable_declarator", .variableDeclarator),
    ("for_in_statement", .loopDeclaration),
    ("class_declaration", .classDeclaration),
    ("abstract_class_declaration", .classDeclaration),
    ("import_statement", .importDeclaration),
    ("call_expression", .call),
    ("identifier", .identifier),
    ("string", .string)]

namespace ConcreteNode

/-- Whether a node has the given name in the grammar. -/
def isA (n : ConcreteNode) (kind : String) : Bool := n.head.kind = Text.ofString kind

/-- The kind of a node. A plain token has none of its own, even if it is written like a node. -/
def nodeKind (n : ConcreteNode) : NodeKind :=
  if n.head.named then
    match kindNames.find? (fun k ↦ n.isA k.1) with
    | some k => k.2
    | none => .other
  else .other

/-- The text of a node in the octets of its source. -/
def text (octets : List UInt8) (n : ConcreteNode) : Text :=
  Utf8.decode ((octets.take n.head.stop).drop n.head.start)

/-- Where a node stands in the octets of its source. -/
def span (octets : List UInt8) (n : ConcreteNode) : Span :=
  .at octets n.head.start n.head.stop

/-- The children that are named. -/
def namedChildren (n : ConcreteNode) : List ConcreteNode := n.children.filter (·.head.named)

/-- The first child with a role. -/
def child? (n : ConcreteNode) (field : Text) : Option ConcreteNode :=
  n.children.find? (·.head.field = some field)

/-- Whether a node with this head and these children only groups the node within it. -/
def isGrouping (n : ConcreteNode) : Bool :=
  n.isA "parenthesized_expression" && n.namedChildren.length == 1

mutual

/-- The node that is seen through grouping parentheses. -/
def seen : ConcreteNode → ConcreteNode
  | node h cs => if isGrouping (node h cs) then seenFirst (node h cs) cs else node h cs

/-- The node that is seen in the first named one of several, and `outer` if none is named. -/
def seenFirst (outer : ConcreteNode) : List ConcreteNode → ConcreteNode
  | [] => outer
  | c :: cs => if c.head.named then seen c else seenFirst outer cs

end

/-- The part that plays a role in a node, under the grammar's own name of the role. -/
def role? (n : ConcreteNode) (field : Text) : Option ConcreteNode := (n.child? field).map seen

/-- A node as a part. -/
def part (octets : List UInt8) (n : ConcreteNode) : Part :=
  ⟨n.nodeKind, n.text octets, n.span octets⟩

/-- The names in the grammar of the roles that it calls otherwise. -/
def roleNames : List (String × String) := [("callee", "function"), ("target", "left")]

/-- The part that plays a role in a node. -/
def playing? (n : ConcreteNode) (role : Text) : Option ConcreteNode :=
  n.role? (match roleNames.find? (fun r ↦ Text.ofString r.1 = role) with
    | some r => Text.ofString r.2
    | none => role)

/-- The parts that play roles in a node. -/
def roles (octets : List UInt8) (n : ConcreteNode) : Roles :=
  let part (role : String) := (n.playing? (Text.ofString role)).map (part octets)
  ⟨part "name", part "value", part "callee", part "source", part "target"⟩

/-- What a parameter binds: its pattern without a type, a default value or a modifier. -/
def binding (n : ConcreteNode) : ConcreteNode :=
  let n :=
    if n.isA "required_parameter" || n.isA "optional_parameter" then
      (n.child? (Text.ofString "pattern")).getD n
    else n
  if n.isA "assignment_pattern" then (n.child? (Text.ofString "left")).getD n else n

/-- The parameters of a function: what those in parentheses bind, or the one without. -/
def parameters (n : ConcreteNode) : List ConcreteNode :=
  match n.child? (Text.ofString "parameters") with
  | some ps => (ps.namedChildren.filter (fun p ↦ !p.isA "comment")).map binding
  | none => (n.child? (Text.ofString "parameter")).toList

/-- The keywords that declare variables. -/
def declarationKeywords : List String := ["var", "let", "const"]

/-- The first keyword among the children that declares variables. -/
def keyword (n : ConcreteNode) : Option Text :=
  (n.children.find? fun c ↦ declarationKeywords.any c.isA).map (·.head.kind)

/-- A node as an abstract node without children. -/
def viewHead (octets : List UInt8) (n : ConcreteNode) : NodeHead where
  kind := n.nodeKind
  span := n.span octets
  keyword := n.keyword
  roles := n.roles octets
  parameters := n.parameters.map (text octets)

mutual

/-- The abstract view of a node; the node itself is not seen through. -/
def view (octets : List UInt8) : ConcreteNode → AbstractNode
  | node h cs => .node (viewHead octets (node h cs)) (viewAll octets cs)

/-- The abstract views of the nodes that are seen in several. -/
def viewAll (octets : List UInt8) : List ConcreteNode → List AbstractNode
  | [] => []
  | c :: cs => viewSeen octets c :: viewAll octets cs

/-- The abstract view of the node that is seen in another. -/
def viewSeen (octets : List UInt8) : ConcreteNode → AbstractNode
  | node h cs =>
    if isGrouping (node h cs) then
      match viewFirst octets cs with
      | some v => v
      | none => .node (viewHead octets (node h cs)) (viewAll octets cs)
    else .node (viewHead octets (node h cs)) (viewAll octets cs)

/-- The abstract view of the node that is seen in the first named one of several. -/
def viewFirst (octets : List UInt8) : List ConcreteNode → Option AbstractNode
  | [] => none
  | c :: cs => if c.head.named then some (viewSeen octets c) else viewFirst octets cs

end

mutual

/-- Viewing through parentheses is viewing what is seen. -/
theorem viewSeen_eq (octets : List UInt8) : ∀ n, viewSeen octets n = view octets (seen n)
  | node h cs => by
    rw [viewSeen, seen]
    split
    · have hf := viewFirst_eq octets (node h cs) cs
      split
      next v hv =>
        rw [hv] at hf
        exact hf
      next hv =>
        rw [hv] at hf
        rw [← hf, view]
    · rw [view]

/-- Viewing the first named node is viewing what is seen in it. -/
theorem viewFirst_eq (octets : List UInt8) (outer : ConcreteNode) :
    ∀ cs, match viewFirst octets cs with
      | some v => v = view octets (seenFirst outer cs)
      | none => outer = seenFirst outer cs
  | [] => rfl
  | c :: cs => by
    by_cases h : c.head.named = true
    · simp only [viewFirst, seenFirst, if_pos h]
      exact viewSeen_eq octets c
    · simp only [viewFirst, seenFirst, if_neg h]
      exact viewFirst_eq octets outer cs

end

/-- The views of several nodes are the views of what is seen in each. -/
theorem viewAll_eq_map (octets : List UInt8) (cs : List ConcreteNode) :
    viewAll octets cs = cs.map fun c ↦ view octets (seen c) := by
  induction cs with
  | nil => rfl
  | cons c cs ih => rw [viewAll, viewSeen_eq, ih]; rfl

end ConcreteNode

end CodeAtlas.Syntax
