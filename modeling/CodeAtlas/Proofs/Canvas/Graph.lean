import CodeAtlas.Proofs.Inventory.WellFormed
import Mathlib.Data.List.Forall2
import Mathlib.Data.List.Nodup

/-!
# The canvas graph

An inventory whose lists are sorted by kind can be drawn, one node after the other. Its edges are the
recorded calls whose two names are those of functions, in the order of the calls (`edges_eq_filterMap`);
as every caller is a function, only calls of unknown names are left out. An edge is told from the others
by its identifier: the number at the end gives the place of the call, and what is in front of it ends
with the identifier of the callee. Main statement: `edges_ofTree`.
-/

namespace CodeAtlas

namespace CallGraph

/-- A recorded call: its caller, its place among the calls of the caller, and its callee. -/
structure Call where
  caller : Text
  index : Nat
  callee : Text
  deriving DecidableEq

/-- The recorded calls, caller by caller. -/
def recorded (g : CallGraph) : List Call :=
  g.flatMap fun c ↦ c.2.zipIdx.map fun d ↦ ⟨c.1, d.2, d.1⟩

theorem mem_recorded_iff {g : CallGraph} {c : Call} :
    c ∈ g.recorded ↔ ∃ cs, (c.caller, cs) ∈ g ∧ cs[c.index]? = some c.callee := by
  constructor
  · intro h
    obtain ⟨⟨caller, cs⟩, hg, hc⟩ := List.mem_flatMap.1 h
    obtain ⟨⟨callee, index⟩, hd, rfl⟩ := List.mem_map.1 hc
    exact ⟨cs, hg, List.mem_zipIdx_iff_getElem?.1 hd⟩
  · rintro ⟨cs, hg, hc⟩
    apply List.mem_flatMap.2
    exact ⟨(c.caller, cs), hg, List.mem_map.2
      ⟨(c.callee, c.index), List.mem_zipIdx_iff_getElem?.2 hc, rfl⟩⟩

theorem caller_mem_callers {g : CallGraph} {c : Call} (h : c ∈ g.recorded) :
    c.caller ∈ g.callers := by
  obtain ⟨cs, hg, -⟩ := mem_recorded_iff.1 h
  exact List.mem_map.2 ⟨_, hg, rfl⟩

/-- A recorded call is told by its caller and its place. -/
theorem nodup_places {g : CallGraph} (h : g.callers.Nodup) :
    (g.recorded.map fun c ↦ (c.caller, c.index)).Nodup := by
  have hplaces (c : Text × List Text) :
      (c.2.zipIdx.map fun d ↦ (c.1, d.2)).Nodup := by
    have hindices : (c.2.zipIdx.map (·.2)).Nodup := by
      rw [List.zipIdx_map_snd]
      exact List.nodup_range'
    refine List.Nodup.of_map Prod.snd ?_
    rwa [List.map_map]
  simp only [recorded, List.map_flatMap, List.map_map, Function.comp_def]
  apply List.nodup_flatMap.2
  refine ⟨fun c _ ↦ hplaces c, ?_⟩
  refine (List.pairwise_map.1 h).imp fun {c d} hne ↦ ?_
  intro p hp hp'
  obtain ⟨_, -, rfl⟩ := List.mem_map.1 hp
  obtain ⟨_, -, hd⟩ := List.mem_map.1 hp'
  exact hne (congrArg Prod.fst hd).symm

end CallGraph

namespace Canvas

open CallGraph (Call)
open CodePoint (underscore)
open Syntax

variable {i : Inventory}

/-! ### Nodes -/

/-- The node of an entity that is drawn as one of a kind. -/
def drawn (kind : NodeKind) (label : Text) (data : NodeData) (e : Entity) : Node :=
  ⟨e.id, kind, label, data, .origin, NodeStyle.ofKind kind⟩

/-- The node of a function that stands among the functions. -/
def drawnFunction (e : Entity) : Node :=
  drawn .functionNode (functionLabel e) ⟨e.name, some e.parameters, none, e.line⟩ e

/-- The node of a variable that stands among the variables. -/
def drawnVariable (e : Entity) : Node :=
  drawn .variableNode (variableLabel e) ⟨e.name, none, some e.scope, e.line⟩ e

/-- The node of a class that stands among the classes. -/
def drawnClass (e : Entity) : Node :=
  drawn .classNode (classLabel e) ⟨e.name, none, none, e.line⟩ e

/-- The nodes of an inventory whose lists are sorted by kind. -/
def drawnNodes (i : Inventory) : List Node :=
  i.functions.map drawnFunction ++ i.vars.map drawnVariable ++ i.classes.map drawnClass

/-- Entities that can be drawn one by one can be drawn together. -/
theorem mapM_eq_ok {f : Entity → Except Undrawable Node} {g : Entity → Node} {es : List Entity}
    (h : ∀ e ∈ es, f e = .ok (g e)) : es.mapM f = .ok (es.map g) := by
  induction es with
  | nil => rfl
  | cons e es ih =>
    rw [List.forall_mem_cons] at h
    rw [List.mapM_cons, h.1, ih h.2]
    rfl

/-- An inventory whose lists are sorted by kind can be drawn. -/
theorem nodes_of_sorted (h : i.Sorted) : nodes i = .ok (drawnNodes i) := by
  have hfunctions : ∀ e ∈ i.functions, functionNode e = .ok (drawnFunction e) := by
    intro e he
    rw [functionNode, node, h.functions e he]
    rfl
  have hvars : ∀ e ∈ i.vars, variableNode e = .ok (drawnVariable e) := by
    intro e he
    rw [variableNode, node, h.vars e he]
    rfl
  have hclasses : ∀ e ∈ i.classes, classNode e = .ok (drawnClass e) := by
    intro e he
    rw [classNode, node, h.classes e he]
    rfl
  rw [nodes, mapM_eq_ok hfunctions, mapM_eq_ok hvars, mapM_eq_ok hclasses]
  rfl

/-- Every function has a node. -/
theorem exists_node_of_mem_functions {f : Entity} (h : f ∈ i.functions) :
    ∃ n ∈ drawnNodes i, n.kind = .functionNode ∧ n.id = f.id := by
  refine ⟨_, List.mem_append_left _ (List.mem_append_left _ (List.mem_map_of_mem h)), rfl, rfl⟩

/-! ### Edges -/

/-- The edge of a recorded call, if both names are those of functions. -/
def edgeOf? (i : Inventory) (c : Call) : Option Edge := do
  let caller ← i.findFunction? c.caller
  let callee ← i.findFunction? c.callee
  return edge caller callee c.index

theorem edgeOf?_eq_some_iff {c : Call} {e : Edge} :
    edgeOf? i c = some e ↔ ∃ caller callee, i.findFunction? c.caller = some caller ∧
      i.findFunction? c.callee = some callee ∧ e = edge caller callee c.index := by
  simp only [edgeOf?, Option.bind_eq_bind, Option.bind_eq_some_iff, Option.pure_def,
    Option.some.injEq]
  constructor
  · rintro ⟨caller, hcaller, callee, hcallee, rfl⟩
    exact ⟨caller, callee, hcaller, hcallee, rfl⟩
  · rintro ⟨caller, callee, hcaller, hcallee, rfl⟩
    exact ⟨caller, hcaller, callee, hcallee, rfl⟩

/-- If the caller of a call is a function, it takes the callee to be one. -/
theorem isSome_edgeOf? {c : Call} {caller : Entity} (h : i.findFunction? c.caller = some caller) :
    (edgeOf? i c).isSome = (i.findFunction? c.callee).isSome := by
  rw [edgeOf?, h]
  cases i.findFunction? c.callee <;> rfl

/-- The edges are those of the recorded calls, in their order. -/
theorem edges_eq_filterMap (i : Inventory) : edges i = i.calls.recorded.filterMap (edgeOf? i) := by
  have hfirst (name : Text) :
      Members.get? name (Inventory.firstOfEach i.functions) = i.findFunction? name :=
    Inventory.get?_firstOfEach i.functions name
  rw [CallGraph.recorded, List.filterMap_flatMap, edges]
  congr 1
  funext c
  rw [List.filterMap_map]
  simp only [edgesFrom, hfirst]
  cases hcaller : i.findFunction? c.1 with
  | none =>
    symm
    apply List.filterMap_eq_nil_iff.2
    intro d _
    simp [edgeOf?, hcaller]
  | some caller =>
    apply List.filterMap_congr
    intro d _
    rw [Function.comp_apply, edgeOf?, hcaller]
    cases i.findFunction? d.1 <;> rfl

/-- An edge has the places of two functions at its ends. -/
theorem mem_functions_of_mem_edges {e : Edge} (h : e ∈ edges i) :
    ∃ caller ∈ i.functions, ∃ callee ∈ i.functions,
      e.source = caller.id ∧ e.target = callee.id := by
  rw [edges_eq_filterMap] at h
  obtain ⟨c, -, hc⟩ := List.mem_filterMap.1 h
  obtain ⟨caller, callee, hcaller, hcallee, rfl⟩ := edgeOf?_eq_some_iff.1 hc
  exact ⟨caller, Inventory.mem_of_firstNamed? hcaller, callee, Inventory.mem_of_firstNamed? hcallee,
    rfl, rfl⟩

/-- An edge is told by its identifier. -/
theorem eq_of_edge_id_eq (h : i.WellFormed) {caller callee caller' callee' : Entity} {m n : Nat}
    (hf : caller ∈ i.functions) (hg : callee ∈ i.functions) (hf' : caller' ∈ i.functions)
    (hg' : callee' ∈ i.functions)
    (heq : (edge caller callee m).id = (edge caller' callee' n).id) : caller = caller' ∧ m = n := by
  have hid (f g : Entity) (k : Nat) : (edge f g k).id =
      (Text.ofString "edge_" ++ f.id ++ Text.ofString "_" ++ g.id) ++ underscore :: Text.ofNat k := by
    rw [edge, List.append_assoc _ (Text.ofString "_") (Text.ofNat k)]
    rfl
  -- From the end: the place of the call, the identifier of the callee, that of the caller.
  rw [hid, hid] at heq
  obtain rfl : m = n := eq_of_append_ofNat_eq heq
  have hends := List.append_cancel_right heq
  obtain rfl : callee = callee' := h.eq_of_append_id_eq _ hg _ hg' _ _ hends
  have hstart := List.append_cancel_right (List.append_cancel_right hends)
  exact ⟨h.eq_of_append_id_eq _ hf _ hf' _ _ hstart, rfl⟩

/-- The identifiers of edges are distinct. -/
theorem nodup_edge_ids (h : i.WellFormed) : ((edges i).map (·.id)).Nodup := by
  rw [edges_eq_filterMap, List.Nodup, List.pairwise_map, List.pairwise_filterMap]
  refine (List.pairwise_map.1 (CallGraph.nodup_places h.nodup_callers)).imp fun {c d} hne ↦ ?_
  intro e he e' he' heq
  obtain ⟨caller, callee, hcaller, hcallee, rfl⟩ := edgeOf?_eq_some_iff.1 he
  obtain ⟨caller', callee', hcaller', hcallee', rfl⟩ := edgeOf?_eq_some_iff.1 he'
  obtain ⟨rfl, hindex⟩ := eq_of_edge_id_eq h (Inventory.mem_of_firstNamed? hcaller)
    (Inventory.mem_of_firstNamed? hcallee) (Inventory.mem_of_firstNamed? hcaller')
    (Inventory.mem_of_firstNamed? hcallee') heq
  have hname : c.caller = d.caller :=
    (Inventory.name_of_firstNamed? hcaller).symm.trans (Inventory.name_of_firstNamed? hcaller')
  exact hne (Prod.ext hname hindex)

/-- What is chosen and what it is turned into stand side by side. -/
theorem forall₂_filter_filterMap {α β : Type} {p : α → Bool} {f : α → Option β} {l : List α}
    (h : ∀ a ∈ l, p a = (f a).isSome) :
    List.Forall₂ (fun a b ↦ f a = some b) (l.filter p) (l.filterMap f) := by
  induction l with
  | nil => exact .nil
  | cons a l ih =>
    rw [List.forall_mem_cons] at h
    cases hf : f a with
    | none =>
      rw [List.filter_cons_of_neg (by simp [h.1, hf]), List.filterMap_cons_none hf]
      exact ih h.2
    | some b =>
      rw [List.filter_cons_of_pos (by simp [h.1, hf]), List.filterMap_cons_some hf]
      exact .cons hf (ih h.2)

/-- The canvas graph of a tree is well formed and loses no call of a known function. The edges are
those of the recorded calls whose callees are functions, each from the first function with the name of
the caller to the first one with the name of the callee. Both ends are nodes of functions, and no two
edges have the same identifier. -/
theorem edges_ofTree (root : AbstractNode) :
    let i := Inventory.ofTree root
    List.Forall₂
        (fun c e ↦ ∃ caller callee, i.findFunction? c.caller = some caller ∧
          i.findFunction? c.callee = some callee ∧ e.source = caller.id ∧ e.target = callee.id)
        (i.calls.recorded.filter fun c ↦ ∃ f ∈ i.functions, f.name = c.callee) (edges i) ∧
      (∃ ns, nodes i = .ok ns ∧ ∀ e ∈ edges i,
        (∃ n ∈ ns, n.kind = .functionNode ∧ n.id = e.source) ∧
          ∃ n ∈ ns, n.kind = .functionNode ∧ n.id = e.target) ∧
      ((edges i).map (·.id)).Nodup := by
  intro i
  have hi : i.WellFormed := Inventory.wellFormed_ofTree root
  refine ⟨?_, ⟨drawnNodes i, nodes_of_sorted hi.toSorted, ?_⟩, nodup_edge_ids hi⟩
  · rw [edges_eq_filterMap]
    have hresolved : ∀ c ∈ i.calls.recorded,
        decide (∃ f ∈ i.functions, f.name = c.callee) = (edgeOf? i c).isSome := by
      intro c hc
      obtain ⟨caller, hcaller⟩ := hi.exists_findFunction? (CallGraph.caller_mem_callers hc)
      rw [isSome_edgeOf? hcaller, Bool.eq_iff_iff, decide_eq_true_iff]
      exact Inventory.isSome_firstNamed?_iff.symm
    refine (forall₂_filter_filterMap hresolved).imp fun c e hce ↦ ?_
    obtain ⟨caller, callee, hcaller, hcallee, rfl⟩ := edgeOf?_eq_some_iff.1 hce
    exact ⟨caller, callee, hcaller, hcallee, rfl, rfl⟩
  · intro e he
    obtain ⟨caller, hcaller, callee, hcallee, hsource, htarget⟩ := mem_functions_of_mem_edges he
    rw [hsource, htarget]
    exact ⟨exists_node_of_mem_functions hcaller, exists_node_of_mem_functions hcallee⟩

end Canvas

end CodeAtlas
