import CodeAtlas.Proofs.Diagram.Shape
import CodeAtlas.Proofs.Inventory.Scalar
import CodeAtlas.Proofs.Json.Strings
import CodeAtlas.Proofs.Service.Outcome
import CodeAtlas.Service.Written

/-!
# Answers can be encoded

Every text in an answer is scalar, so that the answer can be encoded, also if the source is not. Text
reaches an answer in three ways: names and parameters of an inventory are decoded from octets, be it a
fresh or a stored one; a source that has a tree can be encoded, so its lines are scalar and its tokens are
decoded; and a source that cannot be encoded is answered by words in which surrogates are spelled out.
Main statement: `isScalar_visualize`.
-/

namespace CodeAtlas

open Syntax

/-! ### The canvas -/

namespace Canvas

variable {e : Entity} {i : Inventory}

/-- The texts of a node are scalar. -/
structure Node.Scalar (n : Node) : Prop where
  id : n.id.isScalar = true
  label : n.label.isScalar = true
  name : n.data.name.isScalar = true
  parameters : ∀ ps ∈ n.data.parameters, ∀ p ∈ ps, p.isScalar = true
  background : n.style.background.isScalar = true
  border : n.style.border.isScalar = true

theorem Node.Scalar.toJson {n : Node} (h : n.Scalar) : n.toJson.IsScalar := by
  have hparameters : (Json.ofOption (n.data.parameters.map Json.texts)).IsScalar := by
    refine Json.isScalar_ofOption.2 fun v hv ↦ ?_
    obtain ⟨ps, hps, rfl⟩ := Option.map_eq_some_iff.1 hv
    exact Json.isScalar_texts.2 (h.parameters ps hps)
  have hint (n? : Option Int) : (Json.ofOption (n?.map .int)).IsScalar := by
    cases n? <;> simp [Json.ofOption]
  simp only [Node.toJson, Json.isScalar_record, List.forall_mem_cons, List.not_mem_nil,
    IsEmpty.forall_iff, implies_true, Json.isScalar_text, Json.isScalar_str, Json.isScalar_int]
  exact ⟨h.id, trivial, h.label, ⟨h.name, hparameters, hint _, hint _, trivial⟩,
    ⟨trivial, trivial, trivial⟩, ⟨h.background, h.border, trivial, trivial⟩, trivial⟩

theorem isScalar_functionLabel (h : e.Scalar) : (functionLabel e).isScalar = true := by
  have hparameters := Text.isScalar_intercalate (Text.isScalar_ofString ", ") h.parameters
  simp [functionLabel, h.name, hparameters]

theorem isScalar_variableLabel (h : e.Scalar) : (variableLabel e).isScalar = true := by
  have hkeyword : (e.keyword.getD []).isScalar = true := by
    cases hk : e.keyword with
    | none => rfl
    | some k => exact h.keyword k hk
  simp [variableLabel, h.name, hkeyword]

/-- The styles of nodes are fixed. -/
theorem Node.Scalar.drawn (h : e.Scalar) (kind : NodeKind) {label : Text} {data : NodeData}
    (hlabel : label.isScalar = true) (hname : data.name.isScalar = true)
    (hparameters : ∀ ps ∈ data.parameters, ∀ p ∈ ps, p.isScalar = true) :
    (drawn kind label data e).Scalar := by
  refine ⟨h.id, hlabel, hname, hparameters, ?_, ?_⟩ <;> cases kind <;>
    exact Text.isScalar_ofString _

/-- A place does not change the texts of a node. -/
theorem scalar_of_mem_placeFrom {perRow : Int} {index : Nat} {ns : List Node}
    (h : ∀ n ∈ ns, n.Scalar) : ∀ n ∈ placeFrom perRow index ns, n.Scalar := by
  induction ns generalizing index with
  | nil => exact h
  | cons n ns ih =>
    rw [List.forall_mem_cons] at h
    rw [placeFrom, List.forall_mem_cons]
    exact ⟨⟨h.1.id, h.1.label, h.1.name, h.1.parameters, h.1.background, h.1.border⟩, ih h.2⟩

/-- The nodes of scalar entities are scalar. -/
theorem scalar_of_mem_drawnNodes (hi : i.Scalar) : ∀ n ∈ drawnNodes i, n.Scalar := by
  have hentity : ∀ e ∈ i.functions ++ i.vars ++ i.classes, e.Scalar := fun e he ↦
    hi.entities e (List.mem_append_left _ he)
  rw [List.forall_mem_append, List.forall_mem_append] at hentity
  rw [drawnNodes, List.forall_mem_append, List.forall_mem_append, List.forall_mem_map,
    List.forall_mem_map, List.forall_mem_map]
  refine ⟨⟨fun e he ↦ ?_, fun e he ↦ ?_⟩, fun e he ↦ ?_⟩
  · have hscalar := hentity.1.1 e he
    refine .drawn hscalar _ (isScalar_functionLabel hscalar) hscalar.name ?_
    rintro _ ⟨⟩
    exact hscalar.parameters
  · have hscalar := hentity.1.2 e he
    exact .drawn hscalar _ (isScalar_variableLabel hscalar) hscalar.name fun _ h ↦ nomatch h
  · have hscalar := hentity.2 e he
    refine .drawn hscalar _ ?_ hscalar.name fun _ h ↦ nomatch h
    simp [classLabel, hscalar.name]

/-- The edges between scalar entities are scalar. -/
theorem isScalar_toJson_of_mem_edges (hi : i.Scalar) : ∀ e ∈ edges i, e.toJson.IsScalar := by
  have hid {name : Text} {f : Entity} (hf : i.findFunction? name = some f) :
      f.id.isScalar = true := by
    have hmem : f ∈ i.entities := by
      simp only [Inventory.entities, List.mem_append]
      exact .inl (.inl (.inl (Inventory.mem_of_firstNamed? hf)))
    exact (hi.entities f hmem).id
  intro e he
  rw [edges_eq_filterMap] at he
  obtain ⟨c, -, hc⟩ := List.mem_filterMap.1 he
  obtain ⟨f, g, hf, hg, rfl⟩ := edgeOf?_eq_some_iff.1 hc
  simp [Edge.toJson, edge, hid hf, hid hg]

end Canvas

/-! ### The flowchart -/

namespace Diagram

variable {i : Inventory} {room : Int}

theorem isScalar_escaped {label : Text} (h : label.isScalar = true) :
    (escaped label).isScalar = true := by
  refine Text.isScalar_iff.2 fun c hc ↦ ?_
  rcases mem_escaped hc with hspelled | ⟨hlabel, -⟩
  · exact Text.isScalar_iff.1 (Text.isScalar_ofString _) c hspelled
  · exact Text.isScalar_iff.1 h c hlabel

theorem isScalar_safeId {id : Text} (h : id.isScalar = true) : (safeId id).isScalar = true := by
  refine Text.isScalar_iff.2 fun c hc ↦ ?_
  obtain ⟨d, hd, rfl⟩ := List.mem_map.1 hc
  split
  · exact Text.isScalar_iff.1 h d hd
  · decide

/-- The flowchart of scalar entities is scalar. -/
theorem isScalar_diagram (hi : i.Scalar) (room : Int) (cycles? : Option (List (List Text))) :
    (text i room cycles?).isScalar = true := by
  have hshown {e : Entity} (he : e ∈ i.functions ++ i.vars) : e.Scalar := by
    refine hi.entities e ?_
    rw [Inventory.entities, List.append_assoc]
    exact List.mem_append_left _ he
  have hline {l : Line} (hl : Drawn i room l) : l.text.isScalar = true := by
    cases hl with
    | truncated => simp [Line.text, Line.margin, truncatedId]
    | functionBox hf =>
      have he := hshown (mem_of_mem_shownFunctions hf)
      simp [Line.text, Line.margin, isScalar_safeId he.id,
        isScalar_escaped (Canvas.isScalar_functionLabel he)]
    | variableBox hv =>
      have he := hshown (mem_of_mem_shownVariables hv)
      simp [Line.text, Line.margin, isScalar_safeId he.id,
        isScalar_escaped (Canvas.isScalar_variableLabel he)]
    | call hf hg =>
      simp [Line.text, Line.margin, isScalar_safeId (hshown (mem_of_mem_shownFunctions hf)).id,
        isScalar_safeId (hshown (mem_of_mem_shownFunctions hg)).id]
    | circular => simp [Line.text, Line.margin, circularId]
  refine Text.isScalar_intercalate (Text.isScalar_ofString _) ?_
  rw [lines_eq_cons, List.map_cons, List.forall_mem_cons, List.forall_mem_map]
  exact ⟨Text.isScalar_ofString _, fun l hl ↦ hline (drawn_of_mem_below hl)⟩

end Diagram

/-! ### Diagnostics -/

/-- The texts of a diagnostic are scalar. -/
structure Diagnostic.Scalar (d : Diagnostic) : Prop where
  message : d.message.isScalar = true
  lineText : d.lineText.isScalar = true
  suggestion : d.suggestion.isScalar = true

theorem Diagnostic.Scalar.toJson {d : Diagnostic} (h : d.Scalar) : d.toJson.IsScalar := by
  simp [Diagnostic.toJson, h.message, h.lineText, h.suggestion]

namespace Diagnosis

variable {source : Text} {root n : ConcreteNode}

/-- What to check is said in fixed words. -/
theorem isScalar_suggest (message : Text) : (suggest message).isScalar = true := by
  unfold suggest advice
  split <;> exact Text.isScalar_ofString _

/-- Tokens are decoded before they are quoted. -/
theorem isScalar_message_describe (octets : List UInt8) (n : ConcreteNode) :
    (describe octets n).message.isScalar = true := by
  have hquoted : Text.isScalar (((firstToken n).text octets).take quotedLength) = true :=
    Text.isScalar_of_subset (List.take_subset _ _) (ConcreteNode.isScalar_text octets _)
  unfold describe
  dsimp only
  split_ifs <;> simp [Cause.message, hquoted]

/-- A line of a scalar source is scalar. -/
theorem isScalar_of_mem_linesOf (h : source.isScalar = true) :
    ∀ line ∈ linesOf source, line.isScalar = true := by
  rw [linesOf, List.forall_mem_map]
  intro piece hpiece
  refine Text.isScalar_of_subset ?_ h
  unfold withoutReturn
  split
  · exact List.Subset.trans (List.dropLast_subset piece) (Text.subset_of_mem_splitOn hpiece)
  · exact Text.subset_of_mem_splitOn hpiece

theorem scalar_atNode (h : source.isScalar = true) (n : ConcreteNode) {cause : Cause}
    (hcause : cause.message.isScalar = true) : (atNode source n cause).Scalar := by
  refine ⟨hcause, ?_, isScalar_suggest _⟩
  unfold atNode
  dsimp only
  split
  · rw [List.getD_eq_getElem?_getD]
    cases hline : (linesOf source)[(n.span (Utf8.encode source)).start.line.toNat - 1]? with
    | none => rfl
    | some line => exact isScalar_of_mem_linesOf h line (List.mem_of_getElem? hline)
  · rfl

/-- The diagnostics of a scalar source are scalar if the kinds of its nodes are. -/
theorem scalar_of_mem_ofTree (h : source.isScalar = true)
    (hkinds : ∀ n ∈ root.nodes, n.head.kind.isScalar = true) :
    ∀ d ∈ ofTree source root, d.Scalar := by
  unfold ofTree
  split
  next =>
    rw [List.forall_mem_singleton]
    exact scalar_atNode h root (Text.isScalar_ofString _)
  next ns hfaults =>
    rw [List.forall_mem_map]
    intro n hn
    unfold ofFault
    split
    · have hmem : n ∈ root.nodes := (faults_root_sublist limit root).subset hn
      refine scalar_atNode h n ?_
      simp [Cause.message, hkinds n hmem]
    · exact scalar_atNode h n (isScalar_message_describe _ n)

/-- The diagnostic of a source without a tree repeats the reason. -/
theorem scalar_ofReason {reason : Text} (h : reason.isScalar = true) : (ofReason reason).Scalar := by
  refine ⟨?_, Text.isScalar_nil, isScalar_suggest _⟩
  simp [ofReason, Cause.message, h]

end Diagnosis

/-! ### Answers -/

/-- Parsing a source yields scalar diagnostics if the kinds of nodes are scalar: a source that cannot be
encoded has no tree. -/
theorem scalar_of_parse_failed {build : Text → ConcreteNode} {source : Text}
    (hkinds : ∀ n ∈ (build source).nodes, n.head.kind.isScalar = true) {ds : List Diagnostic}
    (h : parse (.ofBuilder build) source = .failed ds) : ∀ d ∈ ds, d.Scalar := by
  unfold parse Parser.ofBuilder at h
  cases hencode : Utf8.encodeStrict source with
  | error e =>
    simp only [hencode] at h
    cases h
    rw [List.forall_mem_singleton]
    exact Diagnosis.scalar_ofReason e.isScalar_message
  | ok octets =>
    simp only [hencode] at h
    split at h
    · cases h
      exact Diagnosis.scalar_of_mem_ofTree (Utf8.isScalar_of_encodeStrict hencode) hkinds
    · cases h

namespace Response

/-- The parts of an answer are scalar. -/
structure Scalar (r : Response) : Prop where
  nodes : ∀ n ∈ r.nodes, n.Scalar
  edges : ∀ e ∈ r.edges, e.toJson.IsScalar
  diagram : r.diagram.isScalar = true
  diagnostics : ∀ d ∈ r.diagnostics, d.Scalar
  cycles : ∀ c ∈ r.cycles, ∀ name ∈ c, name.isScalar = true

theorem Scalar.toJson {r : Response} (h : r.Scalar) : r.toJson.IsScalar := by
  simp only [Response.toJson, Json.isScalar_record, List.forall_mem_cons, List.not_mem_nil,
    IsEmpty.forall_iff, implies_true, Json.isScalar_list, List.forall_mem_map, Json.isScalar_text,
    Json.isScalar_real, Json.isScalar_bool, Json.isScalar_texts]
  exact ⟨fun n hn ↦ (h.nodes n hn).toJson, h.edges, h.diagram,
    fun d hd ↦ (h.diagnostics d hd).toJson, trivial, trivial, h.cycles, trivial⟩

end Response

/-- The answer that shows a scalar inventory is scalar. -/
theorem scalar_ofInventory {i : Inventory} (hi : i.WellFormed) (hscalar : i.Scalar) (room : Int)
    (cached : Bool) {v : Visualization} (hv : Visualization.ofInventory i room = .ok v) :
    Response.Scalar ⟨v.nodes, v.edges, v.diagram, [], Response.noTime, cached, v.cycles⟩ := by
  rw [Visualization.ofInventory_of_sorted hi.toSorted room] at hv
  cases hv
  refine ⟨Canvas.scalar_of_mem_placeFrom (Canvas.scalar_of_mem_drawnNodes hscalar),
    Canvas.isScalar_toJson_of_mem_edges hscalar, Diagram.isScalar_diagram hscalar room _, ?_, ?_⟩
  · exact fun _ hd ↦ nomatch hd
  · intro c hc name hname
    have hsimple := CallGraph.simpleCycle_of_mem_found c (List.mem_reverse.1 hc)
    exact hscalar.callers name (hsimple.callers name hname)

/-- What is analysed has a well-formed scalar inventory or scalar diagnostics. -/
structure Analysis.Scalar (a : Analysis) : Prop where
  inventory : ∀ i ∈ a.inventory, i.WellFormed ∧ i.Scalar
  diagnostics : ∀ d ∈ a.diagnostics, d.Scalar

variable {build : Text → ConcreteNode} {a : Analysis} {cache? : Option Store}

theorem scalar_of_analyzeFresh {source : Text}
    (hkinds : ∀ n ∈ (build source).nodes, n.head.kind.isScalar = true)
    (h : analyzeFresh ⟨.ofBuilder build, none, none⟩ source = .ok a) : a.Scalar := by
  refine ⟨?_, ?_⟩
  · intro i hi
    obtain ⟨root, rfl⟩ := exists_view_of_analyzeFresh h hi
    exact ⟨Inventory.wellFormed_ofTree _, Inventory.scalar_ofTree_view _ root⟩
  · unfold analyzeFresh at h
    split at h
    next ds hp =>
      cases h
      exact scalar_of_parse_failed hkinds hp
    next root hp =>
      cases h
      exact fun _ hd ↦ nomatch hd

/-- An analysis is scalar, also if its inventory was stored, be it after a failure or for another
parser. -/
theorem scalar_of_analyze {source : Text}
    (hkinds : ∀ n ∈ (build source).nodes, n.head.kind.isScalar = true)
    (hc : ∀ c ∈ cache?, Session.Reachable c)
    (h : (analyze ⟨.ofBuilder build, none, none⟩ source cache?).1 = .ok a) : a.Scalar := by
  rcases analyze_cases _ source cache? with ⟨c, hmem, i, hl, hstored⟩ | hfresh
  · have hall := (hc c hmem).all (P := fun i ↦ i.WellFormed ∧ i.Scalar) fun octets root ↦
      ⟨Inventory.wellFormed_ofTree _, Inventory.scalar_ofTree_view octets root⟩
    rw [hstored] at h
    cases h
    refine ⟨?_, fun _ hd ↦ nomatch hd⟩
    rintro _ ⟨⟩
    exact Cache.All.of_lookup (P := fun _ i ↦ i.WellFormed ∧ i.Scalar) hall hl
  · rw [hfresh] at h
    exact scalar_of_analyzeFresh hkinds h

/-- A scalar analysis has a scalar answer. -/
theorem exists_respond_eq_scalar {s : Stages} (hs : s.visualization = none) (room : Int)
    (ha : a.Scalar) : ∃ o, respond s room a = .ok o ∧ o.response.Scalar := by
  obtain ⟨digest, inventory, diagnostics, cached⟩ := a
  cases inventory with
  | none =>
    have hnone {α : Type} {P : α → Prop} : ∀ x ∈ ([] : List α), P x := fun _ hx ↦ nomatch hx
    exact ⟨_, rfl, hnone, hnone, rfl, ha.diagnostics, hnone⟩
  | some i =>
    obtain ⟨hi, hscalar⟩ := ha.inventory i rfl
    have hv := Visualization.ofInventory_of_sorted hi.toSorted room
    refine ⟨⟨_, digest⟩, ?_, scalar_ofInventory hi hscalar room cached hv⟩
    simp only [respond, show?, hs, hv]
    rfl

/-- Every answer can be encoded. Whatever the source is, surrogates and cut characters included, whatever
tree is built for it with nodes anywhere in its octets, and whatever a session has left in the cache, a
request is refused, or it has an answer whose texts are all scalar and which can be encoded in every
layout; no stage behind the parser is made to fail, and the kinds of nodes are scalar. -/
theorem isScalar_visualize (build : Text → ConcreteNode) (r : Request)
    (hkinds : ∀ n ∈ (build r.source).nodes, n.head.kind.isScalar = true) {cache? : Option Store}
    (hc : ∀ c ∈ cache?, Session.Reachable c) :
    let result := (visualize ⟨.ofBuilder build, none, none⟩ r cache?).1
    (∃ x, r.rejection? = some x ∧ result = .error (.ofRejection x)) ∨
      ∃ o, result = .ok o ∧
        (∀ t ∈ o.response.toJson.strings,
          t.isScalar = true ∧ Utf8.encodeStrict t = .ok (Utf8.encode t)) ∧
        ∀ layout : Json.Layout, ∃ octets,
          Utf8.encodeStrict (layout.write 0 o.response.toJson) = .ok octets := by
  intro result
  cases hr : r.rejection? with
  | some x => exact .inl ⟨x, rfl, congrArg Prod.fst (visualize_eq_rejected hr)⟩
  | none =>
    obtain ⟨a, ha⟩ := exists_analyze_eq_ok (s := ⟨.ofBuilder build, none, none⟩) rfl r.source cache?
    obtain ⟨o, ho, hscalar⟩ := exists_respond_eq_scalar (s := ⟨.ofBuilder build, none, none⟩) rfl
      r.room (scalar_of_analyze hkinds hc ha)
    have hresult : result = .ok o := by
      simp only [result, visualize, hr, ha]
      exact ho
    have hjson : o.response.toJson.IsScalar := hscalar.toJson
    refine .inr ⟨o, hresult, fun t ht ↦ ⟨hjson t ht, Utf8.encodeStrict_of_isScalar (hjson t ht)⟩, ?_⟩
    exact fun l ↦ ⟨_, Utf8.encodeStrict_of_isScalar (l.isScalar_write 0 _ hjson)⟩

/-- A function whose name begins within a character, from a cache that a session has filled, and a lone
surrogate. -/
theorem isScalar_visualize_cut :
    let build : Text → ConcreteNode := fun _ ↦
      .branch "program" 0 2 none [.branch "function_declaration" 0 2 none
        [.branch "identifier" 1 2 (some "name") []]]
    let s : Stages := ⟨.ofBuilder build, none, none⟩
    let cut := Text.ofString "é"
    let c := (Session.runFrom (Cache.empty 1 Nat.one_pos) [.analyze s cut]).2
    ∀ source ∈ [cut, [CodePoint.ofNat 0xD800]],
      (∀ n ∈ (build source).nodes, n.head.kind.isScalar = true) ∧
        (∀ c' ∈ some c, Session.Reachable c') ∧
        ∃ o, (visualize s ⟨source, Request.defaultLanguage, 15, 100⟩ (some c)).1 = .ok o ∧
          ∀ t ∈ o.response.toJson.strings, t.isScalar = true := by
  intro build s cut c source hsource
  have hkinds : ∀ n ∈ (build source).nodes, n.head.kind.isScalar = true := by
    change ∀ n ∈ (build []).nodes, n.head.kind.isScalar = true
    decide +kernel
  have hc : ∀ c' ∈ some c, Session.Reachable c' := fun _ hc' ↦
    ⟨1, Nat.one_pos, [.analyze s cut], Option.some.inj hc'⟩
  have haccepted : ∀ source ∈ [cut, [CodePoint.ofNat 0xD800]],
      Request.rejection? ⟨source, Request.defaultLanguage, 15, 100⟩ = none := by decide +kernel
  rcases isScalar_visualize build ⟨source, Request.defaultLanguage, 15, 100⟩ hkinds hc with
    ⟨x, hx, -⟩ | ⟨o, ho, hscalar, -⟩
  · rw [haccepted source hsource] at hx
    cases hx
  · exact ⟨hkinds, hc, o, ho, fun t ht ↦ (hscalar t ht).1⟩

end CodeAtlas
