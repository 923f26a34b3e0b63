import CodeAtlas.Proofs.Diagram.Calls

/-!
# Entities in flowcharts

A flowchart and the canvas write their labels apart, and a flowchart divides its room between functions
and variables. Together they take the room as one list of functions and variables would
(`filter_isEntity_lines`), so what a flowchart shows are the first nodes of the canvas, and classes are
never among them. Main statement: `boxes_lines`.
-/

namespace CodeAtlas.Diagram

open Canvas (Node nodes drawnNodes drawnFunction drawnVariable nodes_of_sorted)

variable {i : Inventory}

/-- Whether a line shows a function or a variable. -/
def Line.isEntity : Line → Bool
  | functionBox .. => true
  | variableBox .. => true
  | _ => false

/-- A text is the box of a node: its identifier, and its label in the brackets of its kind. Classes have
no box. -/
inductive IsBox (n : Node) : Text → Prop where
  | function (h : n.kind = .functionNode) : IsBox n
      (Text.ofString "    " ++ safeId n.id ++ Text.ofString "[\"" ++ escaped n.label ++
        Text.ofString "\"]")
  | variable (h : n.kind = .variableNode) : IsBox n
      (Text.ofString "    " ++ safeId n.id ++ Text.ofString "[(\"" ++ escaped n.label ++
        Text.ofString "\")]")

/-- The boxes of all functions and variables. -/
def boxes (i : Inventory) : List Line :=
  i.functions.map (fun e ↦ .functionBox e.id (Canvas.functionLabel e)) ++
    i.vars.map fun e ↦ .variableBox e.id (Canvas.variableLabel e)

theorem length_boxes (i : Inventory) : (boxes i).length = i.functions.length + i.vars.length := by
  simp [boxes]

/-- Functions and variables take the room as one list would: variables get what functions leave. -/
theorem shown_eq_take {room : Int} (h : 0 ≤ room) :
    (shownFunctions i room).map (fun e ↦ Line.functionBox e.id (Canvas.functionLabel e)) ++
        (shownVariables i room).map (fun e ↦ .variableBox e.id (Canvas.variableLabel e)) =
      (boxes i).take room.toNat := by
  have hfunctions : shownFunctions i room = i.functions.take room.toNat := if_pos h
  have hleft : 0 ≤ room - (i.functions.take room.toNat).length := by
    rw [List.length_take]
    omega
  have hvars : shownVariables i room = i.vars.take (room.toNat - i.functions.length) := by
    have hroom : (room - (i.functions.take room.toNat).length).toNat =
        room.toNat - i.functions.length := by
      rw [List.length_take]
      omega
    rw [shownVariables, hfunctions, within, if_pos hleft, hroom]
  rw [boxes, List.take_append, List.length_map, ← List.map_take, ← List.map_take, hfunctions, hvars]

/-- The boxes in a flowchart are the first ones, as many as there is room for. -/
theorem filter_isEntity_lines {room : Int} (h : 0 ≤ room) (cycles? : Option (List (List Text))) :
    (lines i room cycles?).filter Line.isEntity = (boxes i).take room.toNat := by
  have hcalls : (callLines i (shownFunctions i room)).filter Line.isEntity = [] := by
    apply List.filter_eq_nil_iff.2
    intro l hl
    obtain ⟨caller, callee, rfl⟩ := exists_eq_call_of_mem_callLines hl
    exact Bool.false_ne_true
  rw [← shown_eq_take h, filter_lines rfl (fun _ ↦ rfl) rfl, hcalls, List.append_nil]
  simp [List.filter_map, Function.comp_def, Line.isEntity]

/-- A note on the room tells the room, and it is there if there is too little. -/
theorem truncated_mem_lines_iff {room r : Int} {cycles? : Option (List (List Text))} :
    Line.truncated r ∈ lines i room cycles? ↔
      r = room ∧ room < (i.functions.length + i.vars.length : Int) := by
  have hcalls : Line.truncated r ∉ callLines i (shownFunctions i room) := by
    intro hl
    obtain ⟨caller, callee, heq⟩ := exists_eq_call_of_mem_callLines hl
    cases heq
  simp [lines, hcalls, and_comm]

/-- The boxes are those of the nodes that stand in front of the classes. -/
theorem forall₂_isBox (i : Inventory) :
    List.Forall₂ IsBox (i.functions.map drawnFunction ++ i.vars.map drawnVariable)
      ((boxes i).map Line.text) := by
  rw [boxes, List.map_append, List.map_map, List.map_map]
  apply List.rel_append
  · rw [List.forall₂_map_left_iff, List.forall₂_map_right_iff]
    exact List.forall₂_same.2 fun e _ ↦ .function rfl
  · rw [List.forall₂_map_left_iff, List.forall₂_map_right_iff]
    exact List.forall₂_same.2 fun e _ ↦ .variable rfl

/-- A flowchart shows the first nodes of the canvas, up to the last variable, as far as there is room,
each in the brackets of its kind. Its text is its lines, one below the other. The note on the room is
there exactly if a function or a variable is left out. -/
theorem boxes_lines (h : i.Sorted) {room : Int} (hroom : 0 ≤ room)
    (cycles? : Option (List (List Text))) :
    let total := i.functions.length + i.vars.length
    let written := lines i room cycles?
    let entityLines := written.filter Line.isEntity
    text i room cycles? = (Text.ofString "\n").intercalate (written.map Line.text) ∧
    ∃ ns, nodes i = .ok ns ∧
      List.Forall₂ IsBox (ns.take (min room.toNat total)) (entityLines.map Line.text) ∧
      entityLines.length = min room.toNat total ∧
      ((∃ r, Line.truncated r ∈ written) ↔ ∃ k < total, entityLines[k]? = none) := by
  intro total written entityLines
  have hlines : entityLines = (boxes i).take room.toNat := filter_isEntity_lines hroom cycles?
  have hlength : entityLines.length = min room.toNat total := by
    rw [hlines, List.length_take, length_boxes]
  refine ⟨rfl, drawnNodes i, nodes_of_sorted h, ?_, hlength, ?_⟩
  · have htake : (drawnNodes i).take (min room.toNat total) =
        (i.functions.map drawnFunction ++ i.vars.map drawnVariable).take room.toNat := by
      have htotal : (i.functions.map drawnFunction ++ i.vars.map drawnVariable).length = total := by
        simp [total]
      rw [drawnNodes, List.take_append_of_le_length (htotal ▸ Nat.min_le_right _ _), ← htotal,
        ← List.take_eq_take_min]
    rw [htake, hlines, List.map_take]
    exact List.forall₂_take _ (forall₂_isBox i)
  · simp only [written, truncated_mem_lines_iff, exists_eq_left, List.getElem?_eq_none_iff, hlength]
    constructor
    · intro hroom'
      exact ⟨room.toNat, by omega, Nat.min_le_left _ _⟩
    · rintro ⟨k, hk, hnone⟩
      omega

/-- Two functions leave room for one of two variables, whose name holds quotation marks; the class comes
later and has no box. -/
theorem boxes_lines_left_room :
    let entity (id : String) (kind : EntityKind) (name : String) (keyword : Option String) : Entity :=
      ⟨Text.ofString id, kind, Text.ofString name, none, [], keyword.map Text.ofString, 0⟩
    let i : Inventory :=
      ⟨[entity "f.1" .functionKind "f" none, entity "g.2" .functionKind "g" none],
        [entity "v.3" .variableKind "\"v\"" (some "let"), entity "w.4" .variableKind "w" none],
        [entity "C.5" .classKind "C" none], [], []⟩
    i.Sorted ∧
      (∃ ns, nodes i = .ok ns ∧ List.Forall₂ IsBox (ns.take 3)
        (((lines i 3 none).filter Line.isEntity).map Line.text)) ∧
      ((lines i 3 none).filter Line.isEntity).map Line.text =
        [Text.ofString "    f_1[\"f()\"]", Text.ofString "    g_2[\"g()\"]",
          Text.ofString "    v_3[(\"#quot;v#quot;: let\")]"] ∧
      (∃ r, Line.truncated r ∈ lines i 3 none) ∧
      text i 3 none = (Text.ofString "\n").intercalate ((lines i 3 none).map Line.text) ∧
      text i 3 none = Text.ofString ("graph TD\n" ++
        "    note[\"⚠️ Large file: Showing first 3 nodes\"]\n" ++
        "    f_1[\"f()\"]\n    g_2[\"g()\"]\n    v_3[(\"#quot;v#quot;: let\")]") := by
  intro entity i
  have hsorted : i.Sorted := by constructor <;> decide
  obtain ⟨htext, ns, hns, hboxes, -, hnote⟩ :=
    boxes_lines hsorted (show (0 : Int) ≤ 3 by decide) none
  have hleft : ∃ k < 4, ((lines i 3 none).filter Line.isEntity)[k]? = none :=
    ⟨3, by decide, by decide +kernel⟩
  exact ⟨hsorted, ⟨ns, hns, hboxes⟩, by decide +kernel, hnote.2 hleft, htext,
    htext.trans (by decide +kernel)⟩

end CodeAtlas.Diagram
