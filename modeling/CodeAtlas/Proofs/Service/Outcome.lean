import CodeAtlas.Grammar.Tsx
import CodeAtlas.Parsing.Outline
import CodeAtlas.Proofs.Cache.Entries
import CodeAtlas.Proofs.Diagnosis.Faults
import CodeAtlas.Proofs.Service.Cycles
import CodeAtlas.Service.Session

/-!
# Kinds of answers

A request is refused, or it is answered by a few diagnostics, or it is answered by what its source
contains; nothing else happens as long as no stage behind the parser is made to fail. What is shown
comes from an inventory that is fresh or stored: the inventory of a tree can be drawn, and whatever
steps a session takes, they store inventories of trees only, so what all of these have in common holds of
what is stored (`Session.all_runFrom`). Main statement: `visualize_trichotomy`.
-/

namespace CodeAtlas

open Syntax

/-! ### Diagnostics -/

namespace Diagnosis

/-- An explanation has from one to ten diagnostics. -/
theorem length_ofTree (source : Text) (root : ConcreteNode) :
    1 ≤ (ofTree source root).length ∧ (ofTree source root).length ≤ limit := by
  refine ⟨List.length_pos_of_ne_nil (ofTree_ne_nil source root), ?_⟩
  have hfaults := length_faults_le limit [root]
  unfold ofTree
  split
  next => exact Nat.le_of_ble_eq_true rfl
  next => rwa [List.length_map]

end Diagnosis

/-- A source without a clean tree has from one to ten diagnostics. -/
theorem length_of_parse_failed {p : Parser} {source : Text} {ds : List Diagnostic}
    (h : parse p source = .failed ds) : 1 ≤ ds.length ∧ ds.length ≤ Diagnosis.limit := by
  unfold parse at h
  split at h
  · cases h
    exact ⟨Nat.le_refl 1, Nat.le_of_ble_eq_true rfl⟩
  · split at h
    · cases h
      exact Diagnosis.length_ofTree _ _
    · cases h

/-! ### Analyses -/

/-- An analysis is informative if it has a well-formed inventory or from one to ten diagnostics. -/
def Analysis.Informative (a : Analysis) : Prop :=
  match a.inventory with
  | some i => i.WellFormed
  | none => 1 ≤ a.diagnostics.length ∧ a.diagnostics.length ≤ Diagnosis.limit

/-- The inventories of a cache are well formed. -/
def Stocked (c : Store) : Prop := c.All fun _ i ↦ i.WellFormed

variable {s : Stages} {source : Text} {a : Analysis} {c : Store} {cache? : Option Store}

/-- A fresh analysis is informative. -/
theorem informative_of_analyzeFresh (h : analyzeFresh s source = .ok a) : a.Informative := by
  unfold analyzeFresh at h
  split at h
  next ds hp =>
    cases h
    exact length_of_parse_failed hp
  next root hp =>
    unfold extract at h
    split at h
    · cases h
    · cases h
      exact Inventory.wellFormed_ofTree _

/-- A fresh inventory is that of a view. -/
theorem exists_view_of_analyzeFresh (h : analyzeFresh s source = .ok a) {i : Inventory}
    (hi : a.inventory = some i) :
    ∃ root : ConcreteNode, i = Inventory.ofTree (root.view (Utf8.encode source)) := by
  unfold analyzeFresh at h
  split at h
  next ds hp =>
    cases h
    cases hi
  next root hp =>
    unfold extract at h
    split at h
    · cases h
    · cases h
      cases hi
      exact ⟨root, rfl⟩

/-- An analysis has a stored inventory, or it is a fresh one that is kept. -/
theorem analyze_cases (s : Stages) (source : Text) (cache? : Option Store) :
    (∃ c ∈ cache?, ∃ i, (c.lookup (Digest.ofText source)).1 = some i ∧
      analyze s source cache? = (.ok ⟨Digest.ofText source, some i, [], true⟩,
        some (c.lookup (Digest.ofText source)).2)) ∨
      analyze s source cache? = (analyzeFresh s source,
        cache?.map fun c ↦ keep (c.lookup (Digest.ofText source)).2 (analyzeFresh s source)) := by
  cases cache? with
  | none => exact .inr rfl
  | some c =>
    cases hl : (c.lookup (Digest.ofText source)).1 with
    | some i => exact .inl ⟨c, rfl, i, hl, analyze_of_lookup_some hl⟩
    | none => exact .inr (analyze_of_lookup_none hl)

/-- An analysis is informative, also if its inventory was stored. -/
theorem informative_of_analyze (hc : ∀ c ∈ cache?, Stocked c)
    (h : (analyze s source cache?).1 = .ok a) : a.Informative := by
  rcases analyze_cases s source cache? with ⟨c, hmem, i, hl, hstored⟩ | hfresh
  · rw [hstored] at h
    cases h
    change i.WellFormed
    exact Cache.All.of_lookup (hc c hmem) hl
  · rw [hfresh] at h
    exact informative_of_analyzeFresh h

/-- An analysis has a result if the extraction does not fail. -/
theorem exists_analyze_eq_ok (h : s.extraction = none) (source : Text) (cache? : Option Store) :
    ∃ a, (analyze s source cache?).1 = .ok a := by
  rcases analyze_cases s source cache? with ⟨c, -, i, -, hstored⟩ | hfresh
  · rw [hstored]
    exact ⟨_, rfl⟩
  · rw [hfresh, analyzeFresh]
    unfold extract
    rw [h]
    cases parse s.parser source with
    | failed ds => exact ⟨_, rfl⟩
    | clean root => exact ⟨_, rfl⟩

/-! ### Sessions -/

section Stored

variable {P : Inventory → Prop}
  (hP : ∀ (octets : List UInt8) (root : ConcreteNode), P (Inventory.ofTree (root.view octets)))

include hP

/-- What holds of the inventories of all views still holds of those in a cache that keeps a fresh
analysis. -/
theorem all_keep (hc : c.All fun _ i ↦ P i) (s : Stages) (source : Text) :
    (keep c (analyzeFresh s source)).All fun _ i ↦ P i := by
  cases hf : analyzeFresh s source with
  | error e => exact hc
  | ok a =>
    have hview := fun i ↦ exists_view_of_analyzeFresh (i := i) hf
    obtain ⟨digest, inventory, diagnostics, cached⟩ := a
    cases inventory with
    | none => exact hc
    | some i =>
      obtain ⟨root, rfl⟩ := hview i rfl
      exact Cache.All.insert hc (hP _ root)

/-- It still holds after an analysis. -/
theorem all_analyze (hc : ∀ c ∈ cache?, c.All fun _ i ↦ P i) (s : Stages) (source : Text) :
    ∀ c ∈ (analyze s source cache?).2, c.All fun _ i ↦ P i := by
  intro c' hc'
  rcases analyze_cases s source cache? with ⟨c, hmem, i, -, hstored⟩ | hfresh
  · rw [hstored] at hc'
    cases hc'
    exact Cache.All.lookup (hc c hmem) _
  · rw [hfresh] at hc'
    obtain ⟨c, hmem, rfl⟩ := Option.map_eq_some_iff.1 hc'
    exact all_keep hP (Cache.All.lookup (hc c hmem) _) s source

/-- It still holds after a request. -/
theorem all_visualize (hc : ∀ c ∈ cache?, c.All fun _ i ↦ P i) (s : Stages) (r : Request) :
    ∀ c ∈ (visualize s r cache?).2, c.All fun _ i ↦ P i := by
  cases hr : r.rejection? with
  | some x =>
    rw [visualize_eq_rejected hr]
    exact hc
  | none =>
    simp only [visualize, hr]
    exact all_analyze hP hc s r.source

namespace Session

/-- It still holds after a step, whatever fails in it. -/
theorem all_step (hc : c.All fun _ i ↦ P i) (s : Step) : (step c s).2.All fun _ i ↦ P i := by
  have hsome : ∀ c' ∈ some c, c'.All fun _ i ↦ P i := by
    rintro _ ⟨⟩
    exact hc
  have hgetD {c? : Option Store} (h : ∀ c' ∈ c?, c'.All fun _ i ↦ P i) :
      (c?.getD c).All fun _ i ↦ P i := by
    cases c? with
    | none => exact hc
    | some c' => exact h c' rfl
  cases s with
  | visualize s r => exact hgetD (all_visualize hP hsome s r)
  | analyze s source language => exact hgetD (all_analyze hP hsome s source)
  | stats => exact hc
  | clear => exact Cache.all_clear c

/-- It still holds after a session. -/
theorem all_runFrom (hc : c.All fun _ i ↦ P i) (steps : List Step) :
    (runFrom c steps).2.All fun _ i ↦ P i := by
  induction steps generalizing c with
  | nil => exact hc
  | cons s ss ih => exact ih (all_step hP hc s)

end Session

end Stored

namespace Session

/-- Some session that begins with an empty cache leaves this cache behind. -/
def Reachable (c : Store) : Prop :=
  ∃ (capacity : Nat) (h : 0 < capacity) (steps : List Step),
    (runFrom (Cache.empty capacity h) steps).2 = c

/-- What holds of the inventories of all views holds of those in a cache that can be reached. -/
theorem Reachable.all {P : Inventory → Prop} (h : Reachable c)
    (hP : ∀ (octets : List UInt8) (root : ConcreteNode), P (Inventory.ofTree (root.view octets))) :
    c.All fun _ i ↦ P i := by
  obtain ⟨capacity, hcapacity, steps, rfl⟩ := h
  exact all_runFrom hP (Cache.all_empty capacity hcapacity) steps

/-- A cache that can be reached is well stocked. -/
theorem Reachable.stocked (h : Reachable c) : Stocked c :=
  h.all fun _ _ ↦ Inventory.wellFormed_ofTree _

end Session

/-! ### Answers -/

namespace Response

/-- An answer that explains why there is nothing to show. -/
structure Explains (r : Response) : Prop where
  one_le : 1 ≤ r.diagnostics.length
  le_ten : r.diagnostics.length ≤ 10
  nodes : r.nodes = []
  edges : r.edges = []
  cycles : r.cycles = []
  diagram : r.diagram = []
  cached : r.cached = false

/-- An answer that shows what a source contains. -/
structure Shows (r : Response) : Prop where
  diagnostics : r.diagnostics = []
  header : (Diagram.writtenLines r.diagram).head? = some (Text.ofString "graph TD")

end Response

/-- A well-formed inventory is shown if the visualization does not fail. -/
theorem exists_respond_eq_shown (h : s.visualization = none) (room : Int) (ha : a.Informative)
    {i : Inventory} (hi : a.inventory = some i) :
    ∃ o, respond s room a = .ok o ∧ o.response.Shows := by
  obtain ⟨digest, inventory, diagnostics, cached⟩ := a
  obtain rfl : inventory = some i := hi
  have hwellFormed : i.WellFormed := ha
  simp only [respond, show?, h, Visualization.ofInventory_of_sorted hwellFormed.toSorted room]
  exact ⟨_, rfl, rfl, Diagram.head?_writtenLines_text _ _ _⟩

/-- An informative analysis has an answer if the visualization does not fail. -/
theorem exists_respond_eq_ok (h : s.visualization = none) (room : Int) (ha : a.Informative) :
    ∃ o, respond s room a = .ok o ∧ (o.response.Explains ∨ o.response.Shows) := by
  cases hi : a.inventory with
  | none =>
    obtain ⟨digest, inventory, diagnostics, cached⟩ := a
    obtain rfl : inventory = none := hi
    exact ⟨_, rfl, .inl ⟨ha.1, ha.2, rfl, rfl, rfl, rfl, rfl⟩⟩
  | some i =>
    obtain ⟨o, ho, hshows⟩ := exists_respond_eq_shown h room ha hi
    exact ⟨o, ho, .inr hshows⟩

/-- A request is refused if its source is empty or too large, and only then. -/
theorem Request.rejection?_cases (r : Request) :
    (r.source = [] ∧ r.rejection? = some .empty) ∨
      (r.source ≠ [] ∧ r.maxBytes < (Utf8.encode r.source).length ∧
        r.rejection? = some (.oversized (Utf8.encode r.source).length r.maxBytes)) ∨
      (r.source ≠ [] ∧ (Utf8.encode r.source).length ≤ r.maxBytes ∧ r.rejection? = none) := by
  unfold Request.rejection?
  split
  next hempty => exact .inl ⟨List.isEmpty_iff.1 hempty, rfl⟩
  next hempty =>
    have hne : r.source ≠ [] := fun h ↦ hempty (List.isEmpty_iff.2 h)
    dsimp only
    split
    next hsize => exact .inr (.inl ⟨hne, hsize, rfl⟩)
    next hsize => exact .inr (.inr ⟨hne, Int.not_lt.1 hsize, rfl⟩)

/-- There are three kinds of results, whatever the text, the language tag and the room are, whatever
the parser makes of the text, and whatever a session has left in the cache, as long as no stage behind
the parser is made to fail. A request is refused with status 400 exactly if its source is empty, and
with status 413 exactly if its source has too many octets, surrogates included. Otherwise it has an
answer: from one to ten diagnostics and nothing else, or no diagnostics and a flowchart. -/
theorem visualize_trichotomy (p : Parser) (r : Request) {cache? : Option Store}
    (h : ∀ c ∈ cache?, Session.Reachable c) :
    let result := (visualize ⟨p, none, none⟩ r cache?).1
    ((∃ message, result = .error (.rejected message (some 400))) ↔ r.source = []) ∧
      ((∃ message, result = .error (.rejected message (some 413))) ↔
        r.source ≠ [] ∧ r.maxBytes < (Utf8.encode r.source).length) ∧
      ((∃ o, result = .ok o ∧ (o.response.Explains ∨ o.response.Shows)) ↔
        r.source ≠ [] ∧ (Utf8.encode r.source).length ≤ r.maxBytes) := by
  intro result
  rcases r.rejection?_cases with ⟨hempty, hr⟩ | ⟨hne, hsize, hr⟩ | ⟨hne, hsize, hr⟩
  · have hresult : result = .error (.ofRejection .empty) :=
      congrArg Prod.fst (visualize_eq_rejected hr)
    simp [hresult, hempty, Problem.ofRejection, Rejection.status]
  · have hresult : result = .error (.ofRejection (.oversized _ _)) :=
      congrArg Prod.fst (visualize_eq_rejected hr)
    simp [hresult, hne, hsize, Problem.ofRejection, Rejection.status]
  · obtain ⟨a, ha⟩ := exists_analyze_eq_ok (s := ⟨p, none, none⟩) rfl r.source cache?
    have hinformative : a.Informative := informative_of_analyze (fun c hc ↦ (h c hc).stocked) ha
    obtain ⟨o, ho, hkind⟩ := exists_respond_eq_ok (s := ⟨p, none, none⟩) rfl r.room hinformative
    have hresult : result = .ok o := by
      simp only [result, visualize, hr, ha]
      exact ho
    simp [hresult, hne, hsize, hkind]

/-- A lone surrogate has three octets: it is refused where two are allowed and answered where three
are, with a cache in which a session has left an entry after a failure. -/
theorem visualize_trichotomy_lone_surrogate :
    let p := Parser.ofBuilder (Parsing.Language.ofGrammar Grammar.Tsx.grammar).concrete
    let failure := Failure.foreign (Text.ofString "RuntimeError") (Text.ofString "boom") none
    let call := Text.ofString "f()"
    let javascript := Request.defaultLanguage
    let steps : List Session.Step := [
      .visualize ⟨p, some failure, none⟩ ⟨call, javascript, 15, 100⟩,
      .analyze ⟨p, none, none⟩ call javascript]
    let c := (Session.runFrom (Cache.empty 1 Nat.one_pos) steps).2
    let request (maxBytes : Int) : Request :=
      ⟨[CodePoint.ofNat 0xD800], Text.ofString "python", -1, maxBytes⟩
    let result (maxBytes : Int) := (visualize ⟨p, none, none⟩ (request maxBytes) (some c)).1
    (∀ c' ∈ some c, Session.Reachable c') ∧
      (∃ message, result 2 = .error (.rejected message (some 413))) ∧
      ∃ o, result 3 = .ok o ∧ (o.response.Explains ∨ o.response.Shows) := by
  intro p failure call javascript steps c request result
  have hc : ∀ c' ∈ some c, Session.Reachable c' := by
    intro c' hc'
    exact ⟨1, Nat.one_pos, steps, Option.some.inj hc'⟩
  have hne : [CodePoint.ofNat 0xD800] ≠ [] := List.cons_ne_nil _ _
  refine ⟨hc, ?_, ?_⟩
  · exact (visualize_trichotomy p (request 2) hc).2.1.2 ⟨hne, by decide +kernel⟩
  · exact (visualize_trichotomy p (request 3) hc).2.2.2 ⟨hne, by decide +kernel⟩

end CodeAtlas
