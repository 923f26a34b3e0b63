import CodeAtlas.Diagram
import CodeAtlas.Proofs.Inventory.Recursion
import Mathlib.Data.List.Nodup

/-!
# Identifiers of entities

The identifier of an entity ends with the number of its declaration, behind the last underscore. Making
it safe for a flowchart replaces code points by underscores, but neither digits nor underscores, so the
number can still be read off. As the declarations are numbered one after the other, identifiers are
distinct, whatever the names in them are. Main statement: `nodup_ids_ofTree`.
-/

namespace CodeAtlas

/-! ### The last segment of an identifier -/

/-- The underscore. -/
def CodePoint.underscore : CodePoint := ofNat 0x5F

open CodePoint (underscore)

/-- What stands behind the last underscore. -/
def Text.lastSegment (t : Text) : Text := (t.reverse.takeWhile (· ≠ underscore)).reverse

/-- A segment without an underscore is the last one if an underscore stands in front of it. -/
theorem Text.lastSegment_append {before segment : Text} (h : underscore ∉ segment) :
    lastSegment (before ++ underscore :: segment) = segment := by
  have hsegment : ∀ c ∈ segment.reverse, decide (c ≠ underscore) = true := by
    intro c hc
    have hne : c ≠ underscore := by
      rintro rfl
      exact h (List.mem_reverse.1 hc)
    simpa using hne
  rw [lastSegment, List.reverse_append, List.reverse_cons, List.append_assoc,
    List.takeWhile_append_of_pos hsegment]
  simp

/-- No digit is an underscore. -/
theorem underscore_notMem_ofNat (n : Nat) : underscore ∉ Text.ofNat n := by
  intro h
  exact absurd (Text.isDigit_of_mem_ofNat h) (by decide)

/-- A number can be read off behind the last underscore. -/
theorem Text.lastSegment_append_ofNat (before : Text) (n : Nat) :
    lastSegment (before ++ underscore :: ofNat n) = ofNat n :=
  lastSegment_append (underscore_notMem_ofNat n)

/-- The number behind the last underscore is determined by the whole. -/
theorem eq_of_append_ofNat_eq {before before' : Text} {m n : Nat}
    (h : before ++ underscore :: Text.ofNat m = before' ++ underscore :: Text.ofNat n) : m = n := by
  have hlast := congrArg Text.lastSegment h
  rw [Text.lastSegment_append_ofNat, Text.lastSegment_append_ofNat] at hlast
  exact Text.ofNat_inj.1 hlast

namespace Diagram

theorem safeId_append (s t : Text) : safeId (s ++ t) = safeId s ++ safeId t := List.map_append

/-- Digits can stand in an identifier. -/
theorem safeId_ofNat (n : Nat) : safeId (Text.ofNat n) = Text.ofNat n := by
  refine (List.map_congr_left fun c hc ↦ ?_).trans (List.map_id _)
  simp [isSafe, Text.isDigit_of_mem_ofNat hc]

/-- A safe identifier ends with an underscore and the number of the declaration. -/
theorem exists_safeId_identifier (kind : EntityKind) (name : Text) (line : Int) (ordinal : Nat) :
    ∃ before, safeId (Inventory.Draft.identifier kind name line ordinal) =
      before ++ underscore :: Text.ofNat ordinal := by
  have hsegment : safeId (Text.ofString "_" ++ Text.ofNat ordinal) =
      underscore :: Text.ofNat ordinal := by
    rw [safeId_append, safeId_ofNat]
    rfl
  refine ⟨safeId (Text.ofString kind.name ++ Text.ofString "_" ++ name ++ Text.ofString "_" ++
    Text.ofInt line), ?_⟩
  rw [Inventory.Draft.identifier, List.append_assoc, safeId_append, hsegment]

/-- The number of a declaration is determined by its safe identifier. -/
theorem eq_of_safeId_identifier_eq {kind kind' : EntityKind} {name name' : Text} {line line' : Int}
    {m n : Nat} (h : safeId (Inventory.Draft.identifier kind name line m) =
      safeId (Inventory.Draft.identifier kind' name' line' n)) : m = n := by
  obtain ⟨before, hm⟩ := exists_safeId_identifier kind name line m
  obtain ⟨before', hn⟩ := exists_safeId_identifier kind' name' line' n
  rw [hm, hn] at h
  exact eq_of_append_ofNat_eq h

/-- A safe identifier holds an underscore. -/
theorem underscore_mem_safeId_identifier (kind : EntityKind) (name : Text) (line : Int)
    (ordinal : Nat) : underscore ∈ safeId (Inventory.Draft.identifier kind name line ordinal) := by
  obtain ⟨before, h⟩ := exists_safeId_identifier kind name line ordinal
  simp [h]

end Diagram

namespace Inventory

open Syntax

namespace Findings

/-! ### Entities of all kinds -/

/-- Every entity stands in the list of its kind, and in no other. -/
theorem entities_inventory_perm (f : Findings) : f.inventory.entities.Perm f.entities := by
  rw [List.perm_iff_count]
  intro e
  have hcount : ∀ k, (f.entities.filter (·.kind = k)).count e =
      if e.kind = k then f.entities.count e else 0 := by
    intro k
    split
    next hk => exact List.count_filter (by simpa using hk)
    next hk => exact List.count_eq_zero.2 fun he ↦ hk (by simpa using (List.mem_filter.1 he).2)
  simp only [Inventory.entities, inventory, List.count_append, hcount]
  cases e.kind <;> simp

/-- The entity that a declaration becomes is numbered by its place. -/
theorem exists_getElem_entities (f : Findings) (i : Nat) (h : i < f.entities.length) :
    ∃ d ∈ f.declarations, f.entities[i] = d.entity i := by
  have hi : i < f.declarations.length := by simpa [entities] using h
  exact ⟨f.declarations[i], List.getElem_mem hi, by simp [entities]⟩

/-- Safe identifiers are distinct. -/
theorem nodup_safeId_entities (f : Findings) :
    (f.entities.map fun e ↦ Diagram.safeId e.id).Nodup := by
  rw [List.Nodup, List.pairwise_map, List.pairwise_iff_getElem]
  intro i j hi hj hlt heq
  obtain ⟨d, -, hd⟩ := f.exists_getElem_entities i hi
  obtain ⟨d', -, hd'⟩ := f.exists_getElem_entities j hj
  rw [hd, hd'] at heq
  exact absurd (Diagram.eq_of_safeId_identifier_eq heq) (Nat.ne_of_lt hlt)

end Findings

/-- The identifiers of all entities of a tree are distinct, and they are still distinct when they are
made safe for a flowchart. None of them then is one of its notes. -/
theorem nodup_ids_ofTree (root : AbstractNode) :
    let entities := (ofTree root).entities
    (entities.map (·.id)).Nodup ∧
      (entities.map fun e ↦ Diagram.safeId e.id).Nodup ∧
      ∀ e ∈ entities,
        Diagram.safeId e.id ≠ Diagram.truncatedId ∧ Diagram.safeId e.id ≠ Diagram.circularId := by
  intro entities
  -- The order of the four lists does not matter, so the entities are taken in document order.
  obtain ⟨f, hperm⟩ : ∃ f : Findings, entities.Perm f.entities := by
    refine ⟨Findings.ofTree .root 0 root, ?_⟩
    simp only [entities, ofTree_eq_visitTree, Findings.inventory_visitTree]
    exact Findings.entities_inventory_perm _
  have hsafe : (entities.map fun e ↦ Diagram.safeId e.id).Nodup :=
    (hperm.map _).nodup_iff.2 f.nodup_safeId_entities
  refine ⟨?_, hsafe, fun e he ↦ ?_⟩
  · refine List.Nodup.of_map Diagram.safeId ?_
    rw [List.map_map]
    exact hsafe
  · obtain ⟨i, hi, rfl⟩ := List.getElem_of_mem (hperm.mem_iff.1 he)
    obtain ⟨d, -, hd⟩ := f.exists_getElem_entities i hi
    have hmem : underscore ∈ Diagram.safeId (d.entity i).id :=
      Diagram.underscore_mem_safeId_identifier d.kind d.name d.span.start.line i
    have hnotes : underscore ∉ Diagram.truncatedId ∧ underscore ∉ Diagram.circularId := by decide
    rw [hd]
    exact ⟨fun heq ↦ hnotes.1 (heq ▸ hmem), fun heq ↦ hnotes.2 (heq ▸ hmem)⟩

end Inventory

end CodeAtlas
