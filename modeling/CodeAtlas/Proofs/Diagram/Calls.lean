import CodeAtlas.Diagram
import CodeAtlas.Proofs.Canvas.Graph

/-!
# Calls in flowcharts

A flowchart looks names up among the functions that are shown, the canvas among all functions. Those
that are shown stand in front of the others, so a name has the same first function in both places unless
its first function is left out, and then it has none among those shown. So a flowchart has the edges of
the canvas between shown functions. Main statement: `text_calls_lines`.
-/

namespace CodeAtlas

namespace Inventory

/-- Among the first entities a name has its first entity, if that is one of them, and else none. -/
theorem firstNamed?_eq_filter {shown es : List Entity} (h : shown <+: es)
    (hn : (es.map (·.id)).Nodup) (name : Text) :
    firstNamed? shown name = (firstNamed? es name).filter fun e ↦ e.id ∈ shown.map (·.id) := by
  obtain ⟨rest, rfl⟩ := h
  have happend : firstNamed? (shown ++ rest) name =
      (firstNamed? shown name).or (firstNamed? rest name) := List.find?_append
  rw [happend]
  cases hshown : firstNamed? shown name with
  | some e =>
    have hid : e.id ∈ shown.map (·.id) := List.mem_map.2 ⟨e, mem_of_firstNamed? hshown, rfl⟩
    rw [Option.some_or, Option.filter_some, if_pos (decide_eq_true hid)]
  | none =>
    cases hrest : firstNamed? rest name with
    | none => rfl
    | some e =>
      -- An identifier that comes later does not come before.
      rw [List.map_append, List.nodup_append] at hn
      have hid : e.id ∉ shown.map (·.id) := fun hmem ↦
        hn.2.2 _ hmem _ (List.mem_map.2 ⟨e, mem_of_firstNamed? hrest, rfl⟩) rfl
      rw [Option.none_or, Option.filter_some, if_neg (by simpa using hid)]

end Inventory

namespace Diagram

open Canvas (edge edgeOf? edges edges_eq_filterMap)
open CallGraph (Call)

variable {i : Inventory}

/-- Whether a line shows a call. -/
def Line.isCall : Line → Bool
  | call .. => true
  | _ => false

theorem prefix_within {α : Type} (room : Int) (xs : List α) : within room xs <+: xs := by
  unfold within
  split <;> exact List.take_prefix _ _

/-- The line of a recorded call, if both names are those of functions that are shown. -/
def callLine? (shown : List Entity) (c : Call) : Option Line := do
  let caller ← Inventory.firstNamed? shown c.caller
  let callee ← Inventory.firstNamed? shown c.callee
  return .call caller.id callee.id

/-- The lines of calls are those of the recorded calls, in their order. -/
theorem callLines_eq_filterMap (i : Inventory) (shown : List Entity) :
    callLines i shown = i.calls.recorded.filterMap (callLine? shown) := by
  rw [CallGraph.recorded, List.filterMap_flatMap, callLines]
  congr 1
  funext c
  rw [List.filterMap_map]
  cases hcaller : Inventory.firstNamed? shown c.1 with
  | none =>
    symm
    apply List.filterMap_eq_nil_iff.2
    intro d _
    simp [callLine?, hcaller]
  | some caller =>
    have hplaces : c.2.zipIdx.map (·.1) = c.2 := List.zipIdx_map_fst ..
    simp only [callsFrom]
    rw [← hplaces, List.filterMap_map, hplaces]
    apply List.filterMap_congr
    intro d _
    rw [Function.comp_apply, Function.comp_apply, callLine?, hcaller]
    cases Inventory.firstNamed? shown d.1 <;> rfl

theorem exists_eq_call_of_mem_callLines {shown : List Entity} {l : Line}
    (h : l ∈ callLines i shown) : ∃ caller callee, l = .call caller callee := by
  rw [callLines_eq_filterMap] at h
  obtain ⟨c, -, hc⟩ := List.mem_filterMap.1 h
  simp only [callLine?, Option.bind_eq_bind, Option.bind_eq_some_iff, Option.pure_def,
    Option.some.injEq] at hc
  obtain ⟨caller, -, callee, -, rfl⟩ := hc
  exact ⟨caller.id, callee.id, rfl⟩

/-- What is chosen neither for the header nor for a note is chosen from the entities and the calls. -/
theorem filter_lines {p : Line → Bool} (hheader : p .header = false)
    (hnote : ∀ room, p (.truncated room) = false) (hcircular : p .circular = false)
    (i : Inventory) (room : Int) (cycles? : Option (List (List Text))) :
    (lines i room cycles?).filter p =
      ((shownFunctions i room).map fun e ↦
          Line.functionBox e.id (Canvas.functionLabel e)).filter p ++
        ((shownVariables i room).map fun e ↦
          Line.variableBox e.id (Canvas.variableLabel e)).filter p ++
        (callLines i (shownFunctions i room)).filter p := by
  have hheaders : [Line.header].filter p = [] := by simp [hheader]
  have hnotes : (if room < (i.functions.length + i.vars.length : Int)
      then [Line.truncated room] else []).filter p = [] := by
    split <;> simp [hnote]
  have hcycles : (if (cycles?.getD i.calls.cycles).isEmpty
      then [] else [Line.circular]).filter p = [] := by
    split <;> simp [hcircular]
  simp only [lines, List.filter_append, hheaders, hnotes, hcycles, List.nil_append, List.append_nil]

/-- The lines of a flowchart that show calls are those between shown functions. -/
theorem filter_isCall_lines (i : Inventory) (room : Int) (cycles? : Option (List (List Text))) :
    (lines i room cycles?).filter Line.isCall = callLines i (shownFunctions i room) := by
  have hcalls : (callLines i (shownFunctions i room)).filter Line.isCall =
      callLines i (shownFunctions i room) := by
    apply List.filter_eq_self.2
    intro l hl
    obtain ⟨caller, callee, rfl⟩ := exists_eq_call_of_mem_callLines hl
    rfl
  rw [filter_lines rfl (fun _ ↦ rfl) rfl, hcalls]
  simp [List.filter_map, Function.comp_def, Line.isCall]

/-- A call has a line exactly if it has an edge between functions that are shown. -/
theorem callLine?_within (h : (i.functions.map (·.id)).Nodup) (room : Int) (c : Call) :
    let shown := (within room i.functions).map (·.id)
    callLine? (within room i.functions) c =
      ((edgeOf? i c).filter fun e ↦ e.source ∈ shown ∧ e.target ∈ shown).map fun e ↦
        .call e.source e.target := by
  intro shown
  have hfirst (name : Text) : Inventory.firstNamed? (within room i.functions) name =
      (i.findFunction? name).filter fun f ↦ f.id ∈ shown :=
    Inventory.firstNamed?_eq_filter (prefix_within room i.functions) h name
  rw [callLine?, hfirst, hfirst, edgeOf?]
  cases i.findFunction? c.caller with
  | none => rfl
  | some caller =>
    by_cases hcaller : caller.id ∈ shown
    · cases i.findFunction? c.callee with
      | none => simp [Option.filter_some, hcaller]
      | some callee =>
        by_cases hcallee : callee.id ∈ shown
        · simp [Option.filter_some, hcaller, hcallee, edge]
        · simp [Option.filter_some, hcaller, hcallee, edge]
    · cases i.findFunction? c.callee with
      | none => simp [Option.filter_some, hcaller]
      | some callee => simp [Option.filter_some, hcaller, edge]

/-- A flowchart shows the calls that the canvas shows. Its text is its lines, one below the other. With
distinct identifiers of functions, whatever room there is, its lines of calls are those of the edges whose
two ends are shown, in their order. -/
theorem text_calls_lines (h : (i.functions.map (·.id)).Nodup) (room : Int)
    (cycles? : Option (List (List Text))) :
    let shown := (within room i.functions).map (·.id)
    let written := lines i room cycles?
    text i room cycles? = (Text.ofString "\n").intercalate (written.map Line.text) ∧
      (written.filter Line.isCall).map Line.text =
        ((edges i).filter fun e ↦ e.source ∈ shown ∧ e.target ∈ shown).map fun e ↦
          Text.ofString "    " ++ safeId e.source ++ Text.ofString " --> " ++ safeId e.target := by
  intro shown written
  constructor
  · rfl
  rw [filter_isCall_lines, callLines_eq_filterMap, edges_eq_filterMap, List.map_filterMap,
    List.filter_filterMap, List.map_filterMap]
  apply List.filterMap_congr
  intro c _
  rw [shownFunctions, callLine?_within h, Option.map_map]
  rfl

/-- Two functions of one name, of which the first is shown and the last function is not, with an
unknown name among the calls. -/
theorem text_calls_lines_shadowed :
    let function (id name : String) : Entity :=
      ⟨Text.ofString id, .functionKind, Text.ofString name, none, [], none, 0⟩
    let calls (caller : String) (callees : List String) : Text × List Text :=
      (Text.ofString caller, callees.map Text.ofString)
    let i : Inventory :=
      ⟨[function "a.1" "a", function "b.2" "b", function "b.3" "b", function "c.4" "c"], [], [], [],
        [calls "a" ["b", "c", "?", "a"], calls "c" ["a"], calls "b" ["c", "a"]]⟩
    (i.functions.map (·.id)).Nodup ∧
      ((lines i (-1) (some [])).filter Line.isCall).map Line.text =
        [Text.ofString "    a_1 --> b_2", Text.ofString "    a_1 --> a_1",
          Text.ofString "    b_2 --> a_1"] ∧
      text i (-1) (some []) =
        (Text.ofString "\n").intercalate ((lines i (-1) (some [])).map Line.text) ∧
      text i (-1) (some []) = Text.ofString ("graph TD\n" ++
        "    note[\"⚠️ Large file: Showing first -1 nodes\"]\n" ++
        "    a_1[\"a()\"]\n    b_2[\"b()\"]\n    b_3[\"b()\"]\n" ++
        "    a_1 --> b_2\n    a_1 --> a_1\n    b_2 --> a_1") := by
  intro function calls i
  have hids : (i.functions.map (·.id)).Nodup := by decide
  obtain ⟨htext, hcalls⟩ := text_calls_lines hids (-1) (some [])
  exact ⟨hids, hcalls.trans (by decide), htext, htext.trans (by decide +kernel)⟩

end Diagram

end CodeAtlas
