import CodeAtlas.Proofs.Inventory.Identifier

/-!
# Well-formed inventories

What holds of the inventory of any tree, so that what is made of an inventory need not look at trees
again: every list holds entities of its own kind, a function is told from the others by its identifier,
and every caller is listed once and is a function. Main statement: `wellFormed_ofTree`.
-/

namespace CodeAtlas.Inventory

open CodePoint (underscore)
open Syntax

/-- Every list holds entities of its own kind. -/
structure Sorted (i : Inventory) : Prop where
  functions : ∀ e ∈ i.functions, e.kind = .functionKind
  vars : ∀ e ∈ i.vars, e.kind = .variableKind
  classes : ∀ e ∈ i.classes, e.kind = .classKind
  imports : ∀ e ∈ i.imports, e.kind = .importKind

/-- What holds of the inventory of any tree. -/
structure WellFormed (i : Inventory) : Prop extends Sorted i where
  /-- A text that ends with the identifier of a function ends with that of no other. -/
  eq_of_append_id_eq : ∀ f ∈ i.functions, ∀ g ∈ i.functions, ∀ a b : Text,
    a ++ f.id = b ++ g.id → f = g
  nodup_callers : i.calls.callers.Nodup
  exists_function : ∀ name ∈ i.calls.callers, ∃ f ∈ i.functions, f.name = name

namespace WellFormed

variable {i : Inventory}

/-- A function is told by its identifier. -/
theorem eq_of_id_eq (h : i.WellFormed) {f g : Entity} (hf : f ∈ i.functions)
    (hg : g ∈ i.functions) (heq : f.id = g.id) : f = g :=
  h.eq_of_append_id_eq f hf g hg [] [] heq

/-- The name of a caller leads to a function. -/
theorem exists_findFunction? (h : i.WellFormed) {name : Text} (hname : name ∈ i.calls.callers) :
    ∃ f, i.findFunction? name = some f :=
  Option.isSome_iff_exists.1 (isSome_firstNamed?_iff.2 (h.exists_function name hname))

end WellFormed

/-- An identifier ends with an underscore and the number of the declaration. -/
theorem exists_identifier_eq (kind : EntityKind) (name : Text) (line : Int) (ordinal : Nat) :
    ∃ before, Draft.identifier kind name line ordinal =
      before ++ underscore :: Text.ofNat ordinal := by
  refine ⟨Text.ofString kind.name ++ Text.ofString "_" ++ name ++ Text.ofString "_" ++
    Text.ofInt line, ?_⟩
  rw [Draft.identifier, List.append_assoc _ (Text.ofString "_")]
  rfl

namespace Findings

/-- The lists of an inventory are chosen by kind. -/
theorem sorted_inventory (f : Findings) : f.inventory.Sorted := by
  constructor <;> intro e he <;> simpa using (List.mem_filter.1 he).2

/-- An entity is told by its identifier, whatever stands before it. -/
theorem eq_of_append_id_eq {f : Findings} {e e' : Entity} (he : e ∈ f.entities)
    (he' : e' ∈ f.entities) {a b : Text} (h : a ++ e.id = b ++ e'.id) : e = e' := by
  obtain ⟨m, hm, rfl⟩ := List.getElem_of_mem he
  obtain ⟨n, hn, rfl⟩ := List.getElem_of_mem he'
  obtain ⟨d, -, hd⟩ := f.exists_getElem_entities m hm
  obtain ⟨d', -, hd'⟩ := f.exists_getElem_entities n hn
  obtain ⟨before, hbefore⟩ := exists_identifier_eq d.kind d.name d.span.start.line m
  obtain ⟨before', hbefore'⟩ := exists_identifier_eq d'.kind d'.name d'.span.start.line n
  have hplace : m = n := by
    rw [hd, hd', Declaration.entity, Declaration.entity, hbefore, hbefore', ← List.append_assoc,
      ← List.append_assoc] at h
    exact eq_of_append_ofNat_eq h
  subst hplace
  rfl

end Findings

/-- The inventory of a tree is well formed. -/
theorem wellFormed_ofTree (root : AbstractNode) : (ofTree root).WellFormed := by
  obtain ⟨f, hf⟩ : ∃ f : Findings, ofTree root = f.inventory :=
    ⟨Findings.ofTree .root 0 root, by rw [ofTree_eq_visitTree, Findings.inventory_visitTree]⟩
  have hcallers : (ofTree root).calls.callers.Nodup := by
    rw [hf]
    exact CallGraph.nodup_callers_recordAll f.calls
  have hsorted : (ofTree root).Sorted := hf ▸ f.sorted_inventory
  refine ⟨hsorted, ?_, hcallers, fun name ↦ exists_function_of_mem_callers⟩
  intro e he e' he' a b h
  rw [hf] at he he'
  exact Findings.eq_of_append_id_eq (List.mem_filter.1 he).1 (List.mem_filter.1 he').1 h

end CodeAtlas.Inventory
