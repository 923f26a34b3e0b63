import CodeAtlas.Proofs.Calls.Complete
import CodeAtlas.Proofs.Diagram.Lines
import CodeAtlas.Service.Basic

/-!
# Cycles in what is shown

Three parts of what is shown of a tree tell of cycles: the list of cycles, the edges of the canvas and
the note at the end of the flowchart. The list is made from calls between names, of which some may be
unknown, and the edges connect first functions. On a cycle every name is a caller, so each of its calls
has an edge; in turn the edges of a cycle come from calls, as a function is told by its identifier. Main
statement: `consistent_cycles_ofTree`.
-/

namespace CodeAtlas

open Syntax

namespace CallGraph

variable {g : CallGraph}

/-- If every caller is listed once, its calls are those that are recorded. -/
theorem calls_iff_exists_mem_recorded (h : g.callers.Nodup) {a b : Text} :
    g.Calls a b ↔ ∃ n, ⟨a, n, b⟩ ∈ g.recorded := by
  constructor
  · intro hcall
    cases hget : Members.get? a g with
    | none => simp [Calls, callees, hget] at hcall
    | some callees =>
      have hmem : b ∈ callees := by simpa [Calls, CallGraph.callees, hget] using hcall
      obtain ⟨n, hn⟩ := List.mem_iff_getElem?.1 hmem
      exact ⟨n, mem_recorded_iff.2 ⟨callees, (Members.get?_eq_some_iff h).1 hget, hn⟩⟩
  · rintro ⟨n, hn⟩
    obtain ⟨callees, hg, hcallee⟩ := mem_recorded_iff.1 hn
    have hget : Members.get? a g = some callees := (Members.get?_eq_some_iff h).2 hg
    rw [Calls, CallGraph.callees, hget]
    exact List.mem_of_getElem? hcallee

/-- A scan finds a cycle if there is one. -/
theorem cycles_ne_nil_of_transGen {x : Text} (h : Relation.TransGen g.Calls x x) :
    g.cycles ≠ [] := by
  intro hnil
  have hfound : g.scan.found = [] := List.reverse_eq_nil_iff.1 hnil
  apply acyclic_without_found x
  exact Relation.TransGen.mono (fun a b hab ↦ calls_without.2 ⟨hab, by simp [hfound]⟩) _ _ h

end CallGraph

namespace Canvas

variable {i : Inventory}

/-- `Leads es a b` says that one of the edges leads from the node `a` to the node `b`. -/
def Leads (es : List Edge) (a b : Text) : Prop := ∃ e ∈ es, e.source = a ∧ e.target = b

/-- `Linked i es a b` says that one of the edges leads from the first function named `a` to the first
one named `b`. -/
def Linked (i : Inventory) (es : List Edge) (a b : Text) : Prop :=
  ∃ f g, i.findFunction? a = some f ∧ i.findFunction? b = some g ∧ Leads es f.id g.id

/-- An edge leads from the first function of a caller to the first function of one of its callees. -/
theorem leads_edges_iff (h : i.WellFormed) {a b : Text} :
    Leads (edges i) a b ↔ ∃ caller callee f g, i.calls.Calls caller callee ∧
      i.findFunction? caller = some f ∧ i.findFunction? callee = some g ∧ f.id = a ∧ g.id = b := by
  simp only [CallGraph.calls_iff_exists_mem_recorded h.nodup_callers]
  constructor
  · rintro ⟨e, he, rfl, rfl⟩
    rw [edges_eq_filterMap] at he
    obtain ⟨c, hc, hce⟩ := List.mem_filterMap.1 he
    obtain ⟨f, g, hf, hg, rfl⟩ := edgeOf?_eq_some_iff.1 hce
    exact ⟨c.caller, c.callee, f, g, ⟨c.index, hc⟩, hf, hg, rfl, rfl⟩
  · rintro ⟨caller, callee, f, g, ⟨n, hn⟩, hf, hg, rfl, rfl⟩
    refine ⟨edge f g n, ?_, rfl, rfl⟩
    rw [edges_eq_filterMap]
    exact List.mem_filterMap.2 ⟨_, hn, edgeOf?_eq_some_iff.2 ⟨f, g, hf, hg, rfl⟩⟩

/-- A call of a caller has an edge. -/
theorem linked_of_calls (h : i.WellFormed) {a b : Text} (hab : i.calls.Calls a b)
    (hb : b ∈ i.calls.callers) : Linked i (edges i) a b := by
  obtain ⟨f, hf⟩ := h.exists_findFunction? hab.mem_callers
  obtain ⟨g, hg⟩ := h.exists_findFunction? hb
  exact ⟨f, g, hf, hg, (leads_edges_iff h).2 ⟨a, b, f, g, hab, hf, hg, rfl, rfl⟩⟩

/-- Every pair of a simple cycle has an edge. -/
theorem linked_of_simpleCycle (h : i.WellFormed) {c : List Text}
    (hc : i.calls.SimpleCycle c) :
    c.IsChain (Linked i (edges i)) ∧
      ∀ a b, CallGraph.Closes c a b → Linked i (edges i) a b := by
  refine ⟨?_, ?_⟩
  · apply hc.chain.imp_of_mem_imp
    exact fun a b _ hb hab ↦ linked_of_calls h hab (hc.callers b hb)
  · intro a b hab
    exact linked_of_calls h (hc.closed a b hab) (hc.callers b (List.mem_of_mem_head? hab.2))

/-- Where linked names lead in one or more steps, edges lead between their first functions. -/
theorem transGen_leads_of_linked {es : List Edge} {a b : Text} {f : Entity}
    (hf : i.findFunction? a = some f) (hab : Relation.TransGen (Linked i es) a b) :
    ∃ g, i.findFunction? b = some g ∧ Relation.TransGen (Leads es) f.id g.id := by
  induction hab with
  | single hlink =>
    obtain ⟨f', g, hf', hg, hlead⟩ := hlink
    obtain rfl : f = f' := Option.some.inj (hf.symm.trans hf')
    exact ⟨g, hg, .single hlead⟩
  | tail _ hlink ih =>
    obtain ⟨f', hf', hleads⟩ := ih
    obtain ⟨f'', g, hf'', hg, hlead⟩ := hlink
    obtain rfl : f' = f'' := Option.some.inj (hf'.symm.trans hf'')
    exact ⟨g, hg, hleads.tail hlead⟩

/-- An edge from a function leads to one that it calls. -/
theorem calls_of_leads (h : i.WellFormed) {f : Entity} {b : Text} (hf : f ∈ i.functions)
    (hfb : Leads (edges i) f.id b) :
    ∃ g ∈ i.functions, g.id = b ∧ i.calls.Calls f.name g.name := by
  obtain ⟨caller, callee, f', g, hcall, hf', hg, hsource, rfl⟩ := (leads_edges_iff h).1 hfb
  obtain rfl : f' = f := h.eq_of_id_eq (Inventory.mem_of_firstNamed? hf') hf hsource
  refine ⟨g, Inventory.mem_of_firstNamed? hg, rfl, ?_⟩
  rw [Inventory.name_of_firstNamed? hf', Inventory.name_of_firstNamed? hg]
  exact hcall

/-- Where edges lead in one or more steps, calls lead too. -/
theorem transGen_calls_of_leads (h : i.WellFormed) {f : Entity} {b : Text} (hf : f ∈ i.functions)
    (hfb : Relation.TransGen (Leads (edges i)) f.id b) :
    ∃ g ∈ i.functions, g.id = b ∧ Relation.TransGen i.calls.Calls f.name g.name := by
  induction hfb with
  | single hab =>
    obtain ⟨g, hg, hid, hcall⟩ := calls_of_leads h hf hab
    exact ⟨g, hg, hid, .single hcall⟩
  | tail _ hbc ih =>
    obtain ⟨f', hf', rfl, hcalls⟩ := ih
    obtain ⟨g, hg, hid, hcall⟩ := calls_of_leads h hf' hbc
    exact ⟨g, hg, hid, hcalls.tail hcall⟩

/-- The edges have a cycle if the calls have one, and only then. -/
theorem cycles_ne_nil_iff_leads (h : i.WellFormed) :
    i.calls.cycles ≠ [] ↔
      ∃ f ∈ i.functions, Relation.TransGen (Leads (edges i)) f.id f.id := by
  constructor
  · intro hne
    obtain ⟨c, hc⟩ := List.exists_mem_of_ne_nil _ hne
    have hsimple : i.calls.SimpleCycle c :=
      CallGraph.simpleCycle_of_mem_found c (List.mem_reverse.1 hc)
    obtain ⟨hchain, hclosed⟩ := linked_of_simpleCycle h hsimple
    obtain ⟨a, ha⟩ := CallGraph.exists_transGen_of_closes hsimple.ne_nil hchain hclosed
    obtain ⟨_, ⟨f, _, hf, -, -⟩, -⟩ := Relation.TransGen.head'_iff.1 ha
    obtain ⟨g, hg, hcycle⟩ := transGen_leads_of_linked hf ha
    obtain rfl : f = g := Option.some.inj (hf.symm.trans hg)
    exact ⟨f, Inventory.mem_of_firstNamed? hf, hcycle⟩
  · rintro ⟨f, hf, hcycle⟩
    obtain ⟨g, hg, hid, hcalls⟩ := transGen_calls_of_leads h hf hcycle
    rw [h.eq_of_id_eq hg hf hid] at hcalls
    exact CallGraph.cycles_ne_nil_of_transGen hcalls

end Canvas

namespace Visualization

/-- What is shown of an inventory whose lists are sorted by kind. -/
theorem ofInventory_of_sorted {i : Inventory} (h : i.Sorted) (room : Int) :
    ofInventory i room = .ok
      ⟨Canvas.placeFrom Canvas.nodesPerRow 0 (Canvas.drawnNodes i), Canvas.edges i,
        Diagram.text i room (some i.calls.cycles), i.calls.cycles⟩ := by
  rw [ofInventory, Canvas.nodes_of_sorted h]
  rfl

/-- Every function has a node among those that are placed. -/
theorem exists_placed_of_mem_functions {i : Inventory} {f : Entity} (h : f ∈ i.functions) :
    ∃ n ∈ Canvas.placeFrom Canvas.nodesPerRow 0 (Canvas.drawnNodes i), n.id = f.id := by
  obtain ⟨n, hn, -, hid⟩ := Canvas.exists_node_of_mem_functions h
  rw [← hid]
  apply List.mem_map.1
  rw [Canvas.placeFrom_map_id]
  exact List.mem_map_of_mem hn

/-- Cycles are reported consistently. What is shown of a tree lists a cycle exactly if the edges lead
from a node back to it, and exactly if the text of the flowchart ends with the note on cycles. Each
listed cycle has an edge from the first function of every name to that of the next one, and from that
of the last name to that of the first. -/
theorem consistent_cycles_ofTree (root : AbstractNode) (room : Int) :
    let i := Inventory.ofTree root
    ∃ v, ofInventory i room = .ok v ∧
      (v.cycles ≠ [] ↔
        ∃ n ∈ v.nodes, Relation.TransGen (Canvas.Leads v.edges) n.id n.id) ∧
      (v.cycles ≠ [] ↔ (Diagram.writtenLines v.diagram).getLast? =
        some (Text.ofString "    note2[\"⚠️ Circular dependencies detected\"]")) ∧
      ∀ c ∈ v.cycles, c ≠ [] ∧ c.IsChain (Canvas.Linked i v.edges) ∧
        ∀ a b, CallGraph.Closes c a b → Canvas.Linked i v.edges a b := by
  intro i
  have hi : i.WellFormed := Inventory.wellFormed_ofTree root
  refine ⟨_, ofInventory_of_sorted hi.toSorted room, ?_, ?_, ?_⟩
  · refine (Canvas.cycles_ne_nil_iff_leads hi).trans ⟨?_, ?_⟩
    · rintro ⟨f, hf, hcycle⟩
      obtain ⟨n, hn, hid⟩ := exists_placed_of_mem_functions hf
      exact ⟨n, hn, hid ▸ hcycle⟩
    · rintro ⟨n, -, hcycle⟩
      obtain ⟨_, ⟨e, he, hsource, -⟩, -⟩ := Relation.TransGen.head'_iff.1 hcycle
      obtain ⟨f, hf, -, -, hid, -⟩ := Canvas.mem_functions_of_mem_edges he
      rw [← hsource, hid] at hcycle
      exact ⟨f, hf, hcycle⟩
  · exact (Diagram.getLast?_writtenLines_text_iff i room (some i.calls.cycles)).symm
  · intro c hc
    have hsimple : i.calls.SimpleCycle c :=
      CallGraph.simpleCycle_of_mem_found c (List.mem_reverse.1 hc)
    exact ⟨hsimple.ne_nil, Canvas.linked_of_simpleCycle hi hsimple⟩

end Visualization

end CodeAtlas
