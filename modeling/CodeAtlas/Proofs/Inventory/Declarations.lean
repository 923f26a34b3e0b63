import CodeAtlas.Proofs.Inventory.Recursion
import CodeAtlas.Proofs.Syntax.Nodes

/-!
# Functions and classes of a source

Every function and every class of an inventory stands for one node, and no node of such a kind is left
out. In an abstract tree this holds by induction, as a node declares a function or a class only for
itself (`spans_ofNode`); a concrete tree has the same nodes of these kinds as its view, since only
groupings and tokens are passed over. Main statement: `declarations_ofTree_view`.
-/

namespace CodeAtlas

open Syntax

namespace Syntax

/-- The kind of entity that a node declares by itself, if it is a function or a class. -/
def NodeKind.declares? : NodeKind → Option EntityKind
  | functionDeclaration | functionLiteral => some .functionKind
  | classDeclaration => some .classKind
  | variableDeclaration | variableDeclarator | loopDeclaration | importDeclaration | call
  | identifier | string | other => none

namespace ConcreteNode

/-- Whether a node is named, and named in the grammar as one of several. -/
def isNamed (names : List String) (n : ConcreteNode) : Bool := n.head.named && names.any n.isA

/-- The names in the grammar of functions. -/
def functionNames : List String :=
  ["function_declaration", "generator_function_declaration", "arrow_function",
    "function_expression", "function", "generator_function"]

/-- The names in the grammar of classes. -/
def classNames : List String := ["class_declaration", "abstract_class_declaration"]

/-- A token is of no kind of its own. -/
theorem nodeKind_of_token {n : ConcreteNode} (h : n.head.named = false) : n.nodeKind = .other := by
  rw [nodeKind, if_neg (by simp [h])]

/-- A named node that is called by a name of the grammar has the kind that goes with the name. -/
theorem nodeKind_of_isA {n : ConcreteNode} (h : n.head.named = true) :
    ∀ k ∈ kindNames, n.isA k.1 = true → n.nodeKind = k.2 := by
  have hnames : ∀ k ∈ kindNames, kindNames.find? (fun l ↦ Text.ofString k.1 = Text.ofString l.1) =
      some k := by decide +kernel
  intro k hk hisA
  have hkind : n.head.kind = Text.ofString k.1 := by simpa [isA] using hisA
  simp only [nodeKind, h, isA, hkind, hnames k hk, if_true]

/-- A node of a kind of its own is called by a name that goes with the kind. -/
theorem exists_mem_kindNames {n : ConcreteNode} (h : n.nodeKind ≠ .other) :
    n.head.named = true ∧ ∃ k ∈ kindNames, n.isA k.1 = true ∧ n.nodeKind = k.2 := by
  have hnamed : n.head.named = true := by
    by_contra hn
    exact h (nodeKind_of_token (by simpa using hn))
  refine ⟨hnamed, ?_⟩
  cases hfind : kindNames.find? fun k ↦ n.isA k.1 with
  | none =>
    refine absurd ?_ h
    simp only [nodeKind, hnamed, hfind, if_true]
  | some k =>
    have hisA := List.find?_some hfind
    refine ⟨k, List.mem_of_find?_eq_some hfind, hisA, ?_⟩
    simp only [nodeKind, hnamed, hfind, if_true]

/-- A grouping is of no kind of its own. -/
theorem nodeKind_of_isGrouping {n : ConcreteNode} (h : n.isGrouping = true) :
    n.nodeKind = .other := by
  have hnames : ∀ k ∈ kindNames, Text.ofString "parenthesized_expression" ≠ Text.ofString k.1 := by
    decide +kernel
  by_contra hkind
  obtain ⟨-, k, hk, hisA, -⟩ := exists_mem_kindNames hkind
  rw [isGrouping, Bool.and_eq_true] at h
  simp only [isA, decide_eq_true_eq] at h hisA
  exact hnames k hk (h.1.symm.trans hisA)

/-- The nodes that declare a kind of entity are those with a name that goes with it. -/
theorem declares?_nodeKind_eq {e : EntityKind} {names : List String}
    (h : names = (kindNames.filter fun k ↦ k.2.declares? = some e).map (·.1)) (n : ConcreteNode) :
    decide (n.nodeKind.declares? = some e) = n.isNamed names := by
  rw [Bool.eq_iff_iff, decide_eq_true_iff, isNamed, Bool.and_eq_true, List.any_eq_true, h]
  constructor
  · intro hdeclares
    obtain ⟨hnamed, k, hk, hisA, hkind⟩ := exists_mem_kindNames (n := n) (by
      intro hother
      rw [hother] at hdeclares
      cases hdeclares)
    rw [hkind] at hdeclares
    exact ⟨hnamed, k.1, List.mem_map_of_mem (List.mem_filter.2 ⟨hk, by simpa using hdeclares⟩), hisA⟩
  · rintro ⟨hnamed, name, hname, hisA⟩
    obtain ⟨k, hk, rfl⟩ := List.mem_map.1 hname
    obtain ⟨hk, hdeclares⟩ := List.mem_filter.1 hk
    rw [nodeKind_of_isA hnamed k hk hisA]
    simpa using hdeclares

end ConcreteNode

end Syntax

namespace Inventory

namespace Findings

/-- Where the declarations of a kind stand. -/
def spans (e : EntityKind) (f : Findings) : List Span :=
  (f.declarations.filter (·.kind = e)).map (·.span)

theorem spans_append (e : EntityKind) (f g : Findings) :
    (f ++ g).spans e = f.spans e ++ g.spans e := by
  simp [spans]

/-- Entities stand where their declarations stand. -/
theorem map_span_filter_entities (e : EntityKind) (f : Findings) :
    (f.entities.filter (·.kind = e)).map (·.span) = (f.spans e).map some := by
  rw [spans, List.map_map]
  exact map_filter_entities (fun _ _ ↦ rfl) e f

theorem kind_of_declarator? {keyword : Option Text} {scope : Nat} {n : AbstractNode}
    {d : Declaration} (h : declarator? keyword scope n = some d) : d.kind = .variableKind := by
  unfold declarator? at h
  split at h
  · obtain ⟨name, -, rfl⟩ := Option.map_eq_some_iff.1 h
    rfl
  · cases h

theorem kind_of_loopVariable? {scope : Nat} {h : NodeHead} {d : Declaration}
    (hd : loopVariable? scope h = some d) : d.kind = .variableKind := by
  obtain ⟨keyword, -, hd⟩ := Option.bind_eq_some_iff.1 hd
  obtain ⟨target, -, hd⟩ := Option.bind_eq_some_iff.1 hd
  obtain ⟨name, -, hd⟩ := Option.bind_eq_some_iff.1 hd
  cases hd
  rfl

theorem kind_of_import? {scope : Nat} {h : NodeHead} {d : Declaration}
    (hd : import? scope h = some d) : d.kind = .importKind := by
  obtain ⟨source, -, hd⟩ := Option.bind_eq_some_iff.1 hd
  split at hd
  · cases hd
    rfl
  · cases hd

/-- What a node declares is a variable, or the kind of the node says what it is. -/
theorem kind_of_mem_declarationsOf {c : Context} {h : NodeHead} {cs : List AbstractNode}
    {d : Declaration} (hd : d ∈ declarationsOf c h cs) :
    d.kind = .variableKind ∨ d.kind = .importKind ∧ h.kind = .importDeclaration ∨
      h.kind.declares? = some d.kind := by
  cases hk : h.kind with
  | functionDeclaration | functionLiteral | classDeclaration =>
    simp only [declarationsOf, hk, List.mem_singleton] at hd
    rw [hd]
    exact .inr (.inr rfl)
  | variableDeclaration =>
    simp only [declarationsOf, hk] at hd
    obtain ⟨n, -, hn⟩ := List.mem_filterMap.1 hd
    exact .inl (kind_of_declarator? hn)
  | loopDeclaration =>
    simp only [declarationsOf, hk, Option.mem_toList] at hd
    exact .inl (kind_of_loopVariable? hd)
  | importDeclaration =>
    simp only [declarationsOf, hk, Option.mem_toList] at hd
    exact .inr (.inl ⟨kind_of_import? hd, rfl⟩)
  | variableDeclarator | call | identifier | string | other =>
    simp [declarationsOf, hk] at hd

/-- A node declares a function or a class for itself only. -/
theorem spans_ofNode {e : EntityKind} (he : e = .functionKind ∨ e = .classKind) (c : Context)
    (h : NodeHead) (cs : List AbstractNode) :
    (ofNode c h cs).spans e = if h.kind.declares? = some e then [h.span] else [] := by
  by_cases hk : h.kind.declares? = some e
  · rw [if_pos hk]
    cases hkind : h.kind <;> rw [hkind] at hk <;> cases hk <;>
      simp [spans, ofNode, declarationsOf, hkind]
  · rw [if_neg hk, spans, List.map_eq_nil_iff, List.filter_eq_nil_iff]
    intro d hd heq
    obtain rfl := of_decide_eq_true heq
    rcases kind_of_mem_declarationsOf hd with hvariable | ⟨himport, -⟩ | hdeclares
    · simp [hvariable] at he
    · simp [himport] at he
    · exact hk hdeclares

mutual

/-- The functions or the classes of a tree stand where its nodes of these kinds stand. -/
theorem spans_ofTree {e : EntityKind} (he : e = .functionKind ∨ e = .classKind) (c : Context)
    (scopes : Nat) : ∀ n, (ofTree c scopes n).spans e =
      (n.heads.filter (·.kind.declares? = some e)).map (·.span)
  | .node h cs => by
    rw [ofTree, spans_append, spans_ofNode he, spans_ofTrees he, AbstractNode.heads,
      List.filter_cons]
    by_cases hk : h.kind.declares? = some e
    · simp [hk]
    · simp [hk]

/-- The functions or the classes of several trees are those of each, one tree after the other. -/
theorem spans_ofTrees {e : EntityKind} (he : e = .functionKind ∨ e = .classKind) (c : Context)
    (scopes : Nat) : ∀ ns, (ofTrees c scopes ns).spans e =
      ((AbstractNode.headsOfAll ns).filter (·.kind.declares? = some e)).map (·.span)
  | [] => rfl
  | n :: ns => by
    rw [ofTrees, spans_append, spans_ofTree he, spans_ofTrees he, AbstractNode.headsOfAll,
      List.filter_append, List.map_append]

end

end Findings

open ConcreteNode Findings in
/-- The functions or the classes that a view has stand where the nodes stand whose names go with these
kinds. -/
theorem spans_ofTree_view {e : EntityKind} (he : e = .functionKind ∨ e = .classKind)
    {names : List String}
    (hnames : names = (kindNames.filter fun k ↦ k.2.declares? = some e).map (·.1))
    (octets : List UInt8) {root : ConcreteNode} (h : root.TokensAreLeaves) :
    (Findings.ofTree .root 0 (root.view octets)).spans e =
      (root.nodes.filter (isNamed names)).map (span octets) := by
  have hchosen (n : ConcreteNode) : decide (n.nodeKind.declares? = some e) = n.isNamed names :=
    declares?_nodeKind_eq hnames n
  have hother {n : ConcreteNode} (hn : n.nodeKind = .other) : n.isNamed names = false := by
    rw [← hchosen, hn]
    rfl
  have hshown : (shown root).filter (isNamed names) = root.nodes.filter (isNamed names) :=
    filter_shown (fun n hn ↦ hother (nodeKind_of_token hn))
      (fun n hn ↦ hother (nodeKind_of_isGrouping hn)) h
  rw [spans_ofTree he, heads_view, List.filter_map, List.map_map, ← hshown]
  congr 1
  exact List.filter_congr fun n _ ↦ hchosen n

open ConcreteNode in
/-- No function and no class of a source is lost or found twice, however deep it stands in others or in
grouping parentheses. The functions of the inventory are, one by one and in document order, the named
nodes that the grammar calls functions, and each stands where its node stands; so are the classes. -/
theorem declarations_ofTree_view (octets : List UInt8) {root : ConcreteNode}
    (h : root.TokensAreLeaves) :
    let inventory := ofTree (root.view octets)
    inventory.functions.map (·.span) =
        (root.nodes.filter (isNamed functionNames)).map (fun n ↦ some (n.span octets)) ∧
      inventory.classes.map (·.span) =
        (root.nodes.filter (isNamed classNames)).map fun n ↦ some (n.span octets) := by
  intro inventory
  have hinventory : inventory = (Findings.ofTree .root 0 (root.view octets)).inventory := by
    simp only [inventory, ofTree_eq_visitTree, Findings.inventory_visitTree]
  have hnames : functionNames = (kindNames.filter fun k ↦
      k.2.declares? = some .functionKind).map (·.1) := by decide
  have hclassNames : classNames = (kindNames.filter fun k ↦
      k.2.declares? = some .classKind).map (·.1) := by decide
  have hfunctions := spans_ofTree_view (.inl rfl) hnames octets h
  have hclasses := spans_ofTree_view (.inr rfl) hclassNames octets h
  rw [hinventory, Findings.inventory, Findings.map_span_filter_entities,
    Findings.map_span_filter_entities, hfunctions, hclasses, List.map_map, List.map_map]
  exact ⟨rfl, rfl⟩

open ConcreteNode in
/-- A class in a function that stands in two pairs of parentheses. -/
theorem declarations_ofTree_view_grouped :
    let octets := Utf8.encode (Text.ofString "((() => \x7b class C \x7b\x7d \x7d))")
    let declaration := branch "class_declaration" 10 20 none [
      token "class" 10 15, branch "type_identifier" 16 17 (some "name") [],
      branch "class_body" 18 20 (some "body") [token "\x7b" 18 19, token "\x7d" 19 20]]
    let function := branch "arrow_function" 2 22 none [
      branch "formal_parameters" 2 4 (some "parameters") [token "(" 2 3, token ")" 3 4],
      token "=>" 5 7,
      branch "statement_block" 8 22 (some "body") [token "\x7b" 8 9, declaration, token "\x7d" 21 22]]
    let root := branch "program" 0 24 none [
      branch "expression_statement" 0 24 none [
        branch "parenthesized_expression" 0 24 none [
          token "(" 0 1,
          branch "parenthesized_expression" 1 23 none [token "(" 1 2, function, token ")" 22 23],
          token ")" 23 24]]]
    let inventory := ofTree (root.view octets)
    root.TokensAreLeaves ∧
      inventory.functions.map (·.span) = [some ⟨⟨1, 2⟩, ⟨1, 22⟩⟩] ∧
      inventory.classes.map (·.span) = [some ⟨⟨1, 10⟩, ⟨1, 20⟩⟩] := by
  intro octets declaration function root inventory
  have hleaves : root.TokensAreLeaves := by decide +kernel
  have hspans := declarations_ofTree_view octets hleaves
  refine ⟨hleaves, hspans.1.trans ?_, hspans.2.trans ?_⟩
  · decide +kernel
  · decide +kernel

end Inventory

end CodeAtlas
