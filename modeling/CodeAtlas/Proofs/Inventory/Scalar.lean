import CodeAtlas.Proofs.Inventory.Invariant
import CodeAtlas.Proofs.Syntax.Nodes
import CodeAtlas.Proofs.Text.Utf8

/-!
# Inventories without surrogates

The texts of a view are decoded from octets or are keywords, so they are scalar, whatever the tree is and
wherever its nodes begin and end; the names of its kinds are not shown. Names are handed down and
parameters are collapsed, which preserves this. Main statement: `scalar_ofTree_view`.
-/

namespace CodeAtlas

open Syntax

/-! ### Views -/

/-- The texts that a node tells are scalar. -/
structure Syntax.NodeHead.Scalar (h : NodeHead) : Prop where
  keyword : ∀ k ∈ h.keyword, k.isScalar = true
  name : ∀ p ∈ h.roles.name, p.text.isScalar = true
  source : ∀ p ∈ h.roles.source, p.text.isScalar = true
  target : ∀ p ∈ h.roles.target, p.text.isScalar = true
  parameters : ∀ t ∈ h.parameters, t.isScalar = true

namespace Syntax.ConcreteNode

variable (octets : List UInt8) (n : ConcreteNode)

/-- The text of a node is decoded from octets, also if it begins or ends within a code point. -/
theorem isScalar_text : (n.text octets).isScalar = true := Utf8.isScalar_decode _

/-- A keyword is one of three. -/
theorem isScalar_keyword : ∀ k ∈ n.keyword, k.isScalar = true := by
  intro k hk
  obtain ⟨c, hc, rfl⟩ := Option.map_eq_some_iff.1 hk
  have hany := List.find?_some hc
  obtain ⟨name, -, hname⟩ := List.any_eq_true.1 hany
  have hkind : c.head.kind = Text.ofString name := of_decide_eq_true hname
  rw [hkind]
  exact Text.isScalar_ofString name

theorem scalar_viewHead : (viewHead octets n).Scalar := by
  have hpart {m? : Option ConcreteNode} : ∀ p ∈ m?.map (part octets), p.text.isScalar = true := by
    intro p hp
    obtain ⟨m, -, rfl⟩ := Option.map_eq_some_iff.1 hp
    exact isScalar_text octets m
  refine ⟨isScalar_keyword n, hpart, hpart, hpart, ?_⟩
  intro t ht
  obtain ⟨m, -, rfl⟩ := List.mem_map.1 ht
  exact isScalar_text octets m

/-- The texts of a view are scalar. -/
theorem scalar_of_mem_heads_view : ∀ h ∈ (n.view octets).heads, h.Scalar := by
  intro h hh
  rw [heads_view] at hh
  obtain ⟨m, -, rfl⟩ := List.mem_map.1 hh
  exact scalar_viewHead octets m

end Syntax.ConcreteNode

/-! ### Inventories -/

namespace Inventory

/-- The texts of a declaration are scalar. -/
structure Declaration.Scalar (d : Declaration) : Prop where
  name : d.name.isScalar = true
  parameters : ∀ p ∈ d.parameters, p.isScalar = true
  keyword : ∀ k ∈ d.keyword, k.isScalar = true

/-- The names that a node inherits are scalar. -/
structure Context.Scalar (c : Context) : Prop where
  enclosing : ∀ t ∈ c.enclosing, t.isScalar = true
  offered : ∀ t ∈ c.offered, t.isScalar = true

theorem isScalar_of_identifier? {p? : Option Part} (h : ∀ p ∈ p?, p.text.isScalar = true) :
    ∀ t ∈ p?.bind Part.identifier?, t.isScalar = true := by
  intro t ht
  obtain ⟨p, hp, ht⟩ := Option.bind_eq_some_iff.1 ht
  unfold Part.identifier? at ht
  split at ht
  · cases ht
    exact h p hp
  · cases ht

theorem isScalar_declaredName {h : NodeHead} (hh : h.Scalar) :
    (Draft.declaredName h).isScalar = true := by
  unfold Draft.declaredName
  split
  next part hname => exact hh.name part hname
  next => exact Text.isScalar_ofString _

theorem isScalar_functionName {c : Context} {h : NodeHead} (hc : c.Scalar) (hh : h.Scalar) :
    (Findings.functionName c h).isScalar = true := by
  unfold Findings.functionName
  split
  next =>
    unfold Draft.literalName
    split
    next x xs hoffered => exact hc.offered _ hoffered
    next => exact Text.isScalar_ofString _
  next => exact isScalar_declaredName hh

/-- Nodes with scalar texts hand down and declare nothing else. -/
theorem preserved_scalar : Findings.Preserved Context.Scalar NodeHead.Scalar Declaration.Scalar
    fun k ↦ k.1.isScalar = true where
  inherited {c scopes h} hc hh := by
    constructor
    · unfold Findings.inherited
      dsimp only
      split
      · rintro _ ⟨⟩
        exact isScalar_functionName hc hh
      · exact hc.enclosing
    · unfold Findings.inherited
      dsimp only
      split
      · exact isScalar_of_identifier? hh.name
      · exact fun _ ht ↦ nomatch ht
  declared {c h cs} hc hh hcs d hd := by
    have hnoParameters : ∀ p ∈ ([] : List Text), p.isScalar = true := fun _ hp ↦ nomatch hp
    have hnoKeyword : ∀ k ∈ (none : Option Text), k.isScalar = true := fun _ hk ↦ nomatch hk
    cases hd with
    | function =>
      refine ⟨isScalar_functionName hc hh, ?_, hnoKeyword⟩
      intro p hp
      obtain ⟨t, ht, rfl⟩ := List.mem_map.1 hp
      exact Text.isScalar_collapse (hh.parameters t ht)
    | classDeclaration => exact ⟨isScalar_declaredName hh, hnoParameters, hnoKeyword⟩
    | declarator hn hname =>
      exact ⟨isScalar_of_identifier? (hcs _ hn).name _ hname, hnoParameters, hh.keyword⟩
    | loop hkeyword htarget hname =>
      refine ⟨isScalar_of_identifier? hh.target _ ?_, hnoParameters, hkeyword ▸ hh.keyword⟩
      rw [htarget]
      exact hname
    | imported hsource =>
      exact ⟨Text.isScalar_of_subset (Text.trimWhere_subset _ _) (hh.source _ hsource),
        hnoParameters, hnoKeyword⟩
  called {c h} hc hh k hk := by
    obtain ⟨caller, hcaller, hk⟩ := Option.bind_eq_some_iff.1 hk
    obtain ⟨callee, -, hk⟩ := Option.bind_eq_some_iff.1 hk
    obtain ⟨name, -, hk⟩ := Option.bind_eq_some_iff.1 hk
    cases hk
    exact hc.enclosing caller hcaller

end Inventory

/-- The texts of an entity are scalar. -/
structure Entity.Scalar (e : Entity) : Prop where
  id : e.id.isScalar = true
  name : e.name.isScalar = true
  parameters : ∀ p ∈ e.parameters, p.isScalar = true
  keyword : ∀ k ∈ e.keyword, k.isScalar = true

namespace Inventory

theorem Declaration.Scalar.entity {d : Declaration} (h : d.Scalar) (ordinal : Nat) :
    (d.entity ordinal).Scalar where
  id := by simp [Declaration.entity, Draft.identifier, h.name]
  name := h.name
  parameters := h.parameters
  keyword := h.keyword

/-- The texts of entities and the names of callers are scalar. -/
structure Scalar (i : Inventory) : Prop where
  entities : ∀ e ∈ i.entities, e.Scalar
  callers : ∀ name ∈ i.calls.callers, name.isScalar = true

/-- The inventory of a view is scalar, whatever the tree is. -/
theorem scalar_ofTree_view (octets : List UInt8) (root : ConcreteNode) :
    (ofTree (root.view octets)).Scalar := by
  have hroot : Context.root.Scalar := by constructor <;> rintro _ ⟨⟩
  obtain ⟨f, hf, heq⟩ := exists_findings_of_preserved preserved_scalar hroot _
    (root.scalar_of_mem_heads_view octets)
  rw [heq]
  constructor
  · intro e he
    obtain ⟨d, i, hd, rfl⟩ := hf.entities e (f.entities_inventory_perm.mem_iff.1 he)
    exact hd.entity i
  · intro name hname
    have hcallers : f.inventory.calls.callers = (f.calls.map (·.1)).eraseDups :=
      CallGraph.callers_recordAll f.calls
    rw [hcallers, List.mem_eraseDups] at hname
    obtain ⟨k, hk, rfl⟩ := List.mem_map.1 hname
    exact hf.2 k hk

end Inventory

end CodeAtlas
