import CodeAtlas.Proofs.Diagram.Lines
import CodeAtlas.Proofs.Inventory.Invariant

/-!
# The shape of flowcharts

To a reader of flowcharts a line below the header is a box, a round box or an arrow. Which of them it is,
and with which identifiers and which label, can be told from the line (`Shape.text_inj`), since no code
point that follows an identifier can stand in one. The lines that are chosen for an inventory have such
shapes as soon as no name in it holds a line feed: whatever the parameters are, they stand on one line
and their quotation marks are spelled out. Main statement: `isChart_text`.
-/

namespace CodeAtlas.Diagram

open CodePoint (lineFeed underscore)

/-! ### Shapes -/

/-- What a line below the header is to a reader. -/
inductive Shape where
  | box (id label : Text)
  | round (id label : Text)
  | arrow (source target : Text)
  deriving DecidableEq

/-- Whether a text can stand where an identifier is expected. -/
def IsId (t : Text) : Prop := t ≠ [] ∧ ∀ c ∈ t, isSafe c = true

/-- Whether a text can stand where a label is expected. -/
def IsLabel (t : Text) : Prop := Text.quotationMark ∉ t ∧ lineFeed ∉ t

namespace Shape

/-- A shape as it is written. -/
def text : Shape → Text
  | box id label =>
    Text.ofString "    " ++ id ++ Text.ofString "[\"" ++ label ++ Text.ofString "\"]"
  | round id label =>
    Text.ofString "    " ++ id ++ Text.ofString "[(\"" ++ label ++ Text.ofString "\")]"
  | arrow source target => Text.ofString "    " ++ source ++ Text.ofString " --> " ++ target

/-- Whether identifiers and labels stand where they are expected. -/
def WellFormed : Shape → Prop
  | box id label | round id label => IsId id ∧ IsLabel label
  | arrow source target => IsId source ∧ IsId target

/-- The identifier that a shape declares. -/
def declared? : Shape → Option Text
  | box id _ | round id _ => some id
  | arrow .. => none

/-- The identifier that a shape begins with. -/
def first : Shape → Text
  | box id _ | round id _ => id
  | arrow source _ => source

/-- What stands behind the first identifier. -/
def ending : Shape → Text
  | box _ label => Text.ofString "[\"" ++ label ++ Text.ofString "\"]"
  | round _ label => Text.ofString "[(\"" ++ label ++ Text.ofString "\")]"
  | arrow _ target => Text.ofString " --> " ++ target

theorem text_eq (s : Shape) : s.text = Text.ofString "    " ++ (s.first ++ s.ending) := by
  cases s <;> simp only [text, first, ending, List.append_assoc]

theorem WellFormed.isId_first {s : Shape} (h : s.WellFormed) : IsId s.first := by
  cases s <;> exact h.1

/-- The code point behind the first identifier cannot stand in one. -/
theorem exists_ending_eq (s : Shape) : ∃ c rest, s.ending = c :: rest ∧ isSafe c = false := by
  cases s <;> exact ⟨_, _, rfl, by decide⟩

/-- The first identifier is the longest part that can be one. -/
theorem takeWhile_isSafe {s : Shape} (h : s.WellFormed) :
    (s.first ++ s.ending).takeWhile isSafe = s.first := by
  obtain ⟨c, rest, hending, hc⟩ := s.exists_ending_eq
  rw [List.takeWhile_append_of_pos h.isId_first.2, hending,
    List.takeWhile_cons_of_neg (by simp [hc]), List.append_nil]

/-- Behind the identifier, what the shape is and what else it holds can be told. -/
theorem eq_of_ending_eq {s s' : Shape} (hfirst : s.first = s'.first) (h : s.ending = s'.ending) :
    s = s' := by
  cases s <;> cases s' <;> cases hfirst <;>
    simp [ending, Text.ofString, CodePoint.ofChar] at h
  all_goals rw [h]

/-- A line can be read in one way only. -/
theorem text_inj {s s' : Shape} (hs : s.WellFormed) (hs' : s'.WellFormed)
    (h : s.text = s'.text) : s = s' := by
  rw [text_eq, text_eq] at h
  have hrest := List.append_cancel_left h
  have hfirst : s.first = s'.first := by
    rw [← takeWhile_isSafe hs, hrest, takeWhile_isSafe hs']
  rw [hfirst] at hrest
  exact eq_of_ending_eq hfirst (List.append_cancel_left hrest)

theorem lineFeed_notMem_text {s : Shape} (h : s.WellFormed) : lineFeed ∉ s.text := by
  have hid {id : Text} (h : IsId id) : lineFeed ∉ id := fun hmem ↦ absurd (h.2 _ hmem) (by decide)
  cases s with
  | box id label | round id label =>
    simp only [text, List.mem_append, not_or]
    exact ⟨⟨⟨⟨by decide, hid h.1⟩, by decide⟩, h.2.2⟩, by decide⟩
  | arrow source target =>
    simp only [text, List.mem_append, not_or]
    exact ⟨⟨⟨by decide, hid h.1⟩, by decide⟩, hid h.2⟩

end Shape

/-! ### Identifiers and labels -/

/-- An identifier in which everything else is replaced by underscores can stand where one is
expected. -/
theorem isId_safeId {id : Text} (h : id ≠ []) : IsId (safeId id) := by
  refine ⟨by simpa [safeId] using h, fun c hc ↦ ?_⟩
  obtain ⟨d, -, rfl⟩ := List.mem_map.1 hc
  split
  next hsafe => exact hsafe
  next => decide

/-- An escaped label holds nothing but what it held, apart from what quotation marks are spelled with. -/
theorem mem_escaped {label : Text} {c : CodePoint} (h : c ∈ escaped label) :
    c ∈ Text.ofString "#quot;" ∨ (c ∈ label ∧ c ≠ Text.quotationMark) := by
  obtain ⟨d, hd, hc⟩ := List.mem_flatMap.1 h
  split at hc
  next => exact .inl hc
  next hne =>
    obtain rfl := List.mem_singleton.1 hc
    exact .inr ⟨hd, hne⟩

/-- A label is left with no quotation mark, and with no line feed that it did not have. -/
theorem isLabel_escaped {label : Text} (h : lineFeed ∉ label) : IsLabel (escaped label) := by
  constructor
  · intro hmem
    rcases mem_escaped hmem with hspelled | ⟨-, hne⟩
    · exact absurd hspelled (by decide)
    · exact hne rfl
  · intro hmem
    rcases mem_escaped hmem with hspelled | ⟨hlabel, -⟩
    · exact absurd hspelled (by decide)
    · exact h hlabel

/-- The label of a function stands on one line if its name and its parameters do. -/
theorem lineFeed_notMem_functionLabel {e : Entity} (hname : lineFeed ∉ e.name)
    (hparameters : ∀ p ∈ e.parameters, lineFeed ∉ p) : lineFeed ∉ Canvas.functionLabel e := by
  have hjoined : lineFeed ∉ (Text.ofString ", ").intercalate e.parameters := by
    intro hmem
    rcases Text.mem_intercalate hmem with hsep | ⟨p, hp, hc⟩
    · exact absurd hsep (by decide)
    · exact hparameters p hp hc
  simp only [Canvas.functionLabel, List.mem_append, not_or]
  exact ⟨⟨⟨hname, by decide⟩, hjoined⟩, by decide⟩

/-- The label of a variable stands on one line if its name and its keyword do. -/
theorem lineFeed_notMem_variableLabel {e : Entity} (hname : lineFeed ∉ e.name)
    (hkeyword : ∀ k ∈ e.keyword, lineFeed ∉ k) : lineFeed ∉ Canvas.variableLabel e := by
  have hshown : lineFeed ∉ e.keyword.getD [] := by
    cases hk : e.keyword with
    | none => exact List.not_mem_nil
    | some k => exact hkeyword k hk
  simp only [Canvas.variableLabel, List.mem_append, not_or]
  exact ⟨⟨hname, by decide⟩, hshown⟩

/-! ### Shapes of lines -/

namespace Line

/-- The shape of a line below the header. -/
def shape? : Line → Option Shape
  | header => none
  | truncated room => some (.box truncatedId (Text.ofString "⚠️ Large file: Showing first " ++
      Text.ofInt room ++ Text.ofString " nodes"))
  | functionBox id label => some (.box (safeId id) (escaped label))
  | variableBox id label => some (.round (safeId id) (escaped label))
  | call caller callee => some (.arrow (safeId caller) (safeId callee))
  | circular => some (.box circularId (Text.ofString "⚠️ Circular dependencies detected"))

/-- A line is written as its shape is. -/
theorem text_of_shape? {l : Line} {s : Shape} (h : l.shape? = some s) : s.text = l.text := by
  cases l <;> cases h <;> simp [Shape.text, text, margin, Text.ofString]

end Line

variable {i : Inventory} {room : Int} {cycles? : Option (List (List Text))}

/-- The lines that may stand below the header. -/
inductive Drawn (i : Inventory) (room : Int) : Line → Prop where
  | truncated : Drawn i room (.truncated room)
  | functionBox {f : Entity} (hf : f ∈ shownFunctions i room) :
      Drawn i room (.functionBox f.id (Canvas.functionLabel f))
  | variableBox {v : Entity} (hv : v ∈ shownVariables i room) :
      Drawn i room (.variableBox v.id (Canvas.variableLabel v))
  | call {f g : Entity} (hf : f ∈ shownFunctions i room) (hg : g ∈ shownFunctions i room) :
      Drawn i room (.call f.id g.id)
  | circular : Drawn i room .circular

/-- A line of a call leads from one entity that is shown to another. -/
theorem exists_entities_of_mem_callLines {shown : List Entity} {l : Line}
    (h : l ∈ callLines i shown) : ∃ f ∈ shown, ∃ g ∈ shown, l = .call f.id g.id := by
  rw [callLines_eq_filterMap] at h
  obtain ⟨c, -, hc⟩ := List.mem_filterMap.1 h
  obtain ⟨f, hf, hc⟩ := Option.bind_eq_some_iff.1 hc
  obtain ⟨g, hg, hc⟩ := Option.bind_eq_some_iff.1 hc
  cases hc
  exact ⟨f, Inventory.mem_of_firstNamed? hf, g, Inventory.mem_of_firstNamed? hg, rfl⟩

/-- The lines in front of the calls: the note that not all entities have room, and the entities that are
shown. -/
def entityLines (i : Inventory) (room : Int) : List Line :=
  (if room < i.functions.length + i.vars.length then [.truncated room] else []) ++
    (shownFunctions i room).map (fun e ↦ .functionBox e.id (Canvas.functionLabel e)) ++
    (shownVariables i room).map fun e ↦ .variableBox e.id (Canvas.variableLabel e)

/-- The lines below the header. -/
def below (i : Inventory) (room : Int) (cycles? : Option (List (List Text))) : List Line :=
  entityLines i room ++ callLines i (shownFunctions i room) ++
    if (cycles?.getD i.calls.cycles).isEmpty then [] else [.circular]

theorem lines_eq_cons (i : Inventory) (room : Int) (cycles? : Option (List (List Text))) :
    lines i room cycles? = .header :: below i room cycles? := by
  simp [lines, below, entityLines]

/-- No other lines stand below the header. -/
theorem drawn_of_mem_below {l : Line} (h : l ∈ below i room cycles?) : Drawn i room l := by
  simp only [below, entityLines, List.mem_append, List.mem_map] at h
  rcases h with (((hnote | ⟨f, hf, rfl⟩) | ⟨v, hv, rfl⟩) | hcall) | hcircular
  · split at hnote
    · rw [List.mem_singleton.1 hnote]
      exact .truncated
    · cases hnote
  · exact .functionBox hf
  · exact .variableBox hv
  · obtain ⟨f, hf, g, hg, rfl⟩ := exists_entities_of_mem_callLines hcall
    exact .call hf hg
  · split at hcircular
    · cases hcircular
    · rw [List.mem_singleton.1 hcircular]
      exact .circular

/-- The shapes of a flowchart. -/
def shapes (i : Inventory) (room : Int) (cycles? : Option (List (List Text))) : List Shape :=
  (below i room cycles?).filterMap Line.shape?

/-- The lines below the header are written as their shapes are. -/
theorem map_text_shapes (i : Inventory) (room : Int) (cycles? : Option (List (List Text))) :
    (shapes i room cycles?).map Shape.text = (below i room cycles?).map Line.text := by
  have hshape : ∀ l ∈ below i room cycles?, l.shape?.map Shape.text = some l.text := by
    intro l hl
    obtain ⟨s, hs⟩ : ∃ s, l.shape? = some s := by
      cases drawn_of_mem_below hl <;> exact ⟨_, rfl⟩
    rw [hs, Option.map_some, Line.text_of_shape? hs]
  rw [shapes, List.map_filterMap, List.filterMap_congr hshape]
  exact congrFun List.filterMap_eq_map _

/-! ### Legible inventories -/

/-- What an inventory needs so that its flowcharts can be read: distinct identifiers, each with an
underscore, and names, keywords and parameters that stand on one line. -/
structure Legible (i : Inventory) : Prop where
  nodup : ((i.functions ++ i.vars).map fun e ↦ safeId e.id).Nodup
  underscore_mem : ∀ e ∈ i.functions ++ i.vars, underscore ∈ safeId e.id
  name : ∀ e ∈ i.functions ++ i.vars, lineFeed ∉ e.name
  keyword : ∀ e ∈ i.functions ++ i.vars, ∀ k ∈ e.keyword, lineFeed ∉ k
  parameters : ∀ e ∈ i.functions ++ i.vars, ∀ p ∈ e.parameters, lineFeed ∉ p

/-- The entities that are shown are some of those that are listed. -/
theorem shown_sublist (i : Inventory) (room : Int) :
    (shownFunctions i room ++ shownVariables i room).Sublist (i.functions ++ i.vars) :=
  (prefix_within room i.functions).sublist.append (prefix_within _ i.vars).sublist

theorem mem_of_mem_shownFunctions {e : Entity} (h : e ∈ shownFunctions i room) :
    e ∈ i.functions ++ i.vars :=
  (shown_sublist i room).subset (List.mem_append_left _ h)

theorem mem_of_mem_shownVariables {e : Entity} (h : e ∈ shownVariables i room) :
    e ∈ i.functions ++ i.vars :=
  (shown_sublist i room).subset (List.mem_append_right _ h)

/-- The note that not all entities have room can stand where a label is expected. -/
theorem isLabel_truncated (room : Int) :
    IsLabel (Text.ofString "⚠️ Large file: Showing first " ++ Text.ofInt room ++
      Text.ofString " nodes") := by
  have hroom {c : CodePoint} (hsign : c ∉ Text.ofString "-") (hdigit : c.isDigit = false) :
      c ∉ Text.ofInt room := by
    intro h
    rcases Text.mem_ofInt h with h | h
    · exact hsign h
    · exact absurd h (by simp [hdigit])
  simp only [IsLabel, List.mem_append, not_or]
  exact ⟨⟨⟨by decide, hroom (by decide) (by decide)⟩, by decide⟩,
    ⟨by decide, hroom (by decide) (by decide)⟩, by decide⟩

namespace Legible

theorem isId (hi : Legible i) {e : Entity} (he : e ∈ i.functions ++ i.vars) : IsId (safeId e.id) :=
  isId_safeId fun hnil ↦ by simpa [hnil, safeId] using hi.underscore_mem e he

/-- The shapes of the lines below the header are well formed. -/
theorem wellFormed (hi : Legible i) {s : Shape} (hs : s ∈ shapes i room cycles?) : s.WellFormed := by
  obtain ⟨l, hl, hshape⟩ := List.mem_filterMap.1 hs
  cases drawn_of_mem_below hl with
  | truncated =>
    cases hshape
    exact ⟨⟨by decide, by decide⟩, isLabel_truncated room⟩
  | functionBox hf =>
    cases hshape
    have hf := mem_of_mem_shownFunctions hf
    exact ⟨hi.isId hf, isLabel_escaped
      (lineFeed_notMem_functionLabel (hi.name _ hf) (hi.parameters _ hf))⟩
  | variableBox hv =>
    cases hshape
    have hv := mem_of_mem_shownVariables hv
    exact ⟨hi.isId hv, isLabel_escaped
      (lineFeed_notMem_variableLabel (hi.name _ hv) (hi.keyword _ hv))⟩
  | call hf hg =>
    cases hshape
    exact ⟨hi.isId (mem_of_mem_shownFunctions hf), hi.isId (mem_of_mem_shownFunctions hg)⟩
  | circular =>
    cases hshape
    exact ⟨⟨by decide, by decide⟩, by decide, by decide⟩

/-- The text of a flowchart consists of its header and its shapes, one on each line. -/
theorem writtenLines_text (hi : Legible i) (room : Int) (cycles? : Option (List (List Text))) :
    writtenLines (text i room cycles?) =
      Text.ofString "graph TD" :: (shapes i room cycles?).map Shape.text := by
  have hline : ∀ t ∈ (lines i room cycles?).map Line.text, writtenLines t = [t] := by
    intro t ht
    apply List.splitOn_eq_singleton
    rw [lines_eq_cons, List.map_cons, ← map_text_shapes] at ht
    rcases List.mem_cons.1 ht with rfl | ht
    · decide +kernel
    · obtain ⟨s, hs, rfl⟩ := List.mem_map.1 ht
      exact Shape.lineFeed_notMem_text (hi.wellFormed hs)
  calc writtenLines (text i room cycles?)
    _ = ((lines i room cycles?).map Line.text).flatMap writtenLines := by
      rw [Diagram.writtenLines_text, List.flatMap_map]
    _ = ((lines i room cycles?).map Line.text).flatMap fun t ↦ [t] := List.flatMap_congr hline
    _ = (lines i room cycles?).map Line.text := List.flatMap_singleton' _
    _ = Text.ofString "graph TD" :: (shapes i room cycles?).map Shape.text := by
      rw [lines_eq_cons, List.map_cons, map_text_shapes]
      rfl

end Legible

/-! ### Declarations and arrows -/

/-- Notes and entities declare identifiers, calls do not. -/
theorem filterMap_declared?_shapes (i : Inventory) (room : Int)
    (cycles? : Option (List (List Text))) :
    (shapes i room cycles?).filterMap Shape.declared? =
      (if room < i.functions.length + i.vars.length then [truncatedId] else []) ++
        (shownFunctions i room ++ shownVariables i room).map (fun e ↦ safeId e.id) ++
        if (cycles?.getD i.calls.cycles).isEmpty then [] else [circularId] := by
  have hcalls : (callLines i (shownFunctions i room)).filterMap
      (fun l ↦ l.shape?.bind Shape.declared?) = [] := by
    refine List.filterMap_eq_nil_iff.2 fun l hl ↦ ?_
    obtain ⟨f, -, g, -, rfl⟩ := exists_entities_of_mem_callLines hl
    rfl
  have hentities : (entityLines i room).filterMap (fun l ↦ l.shape?.bind Shape.declared?) =
      (if room < i.functions.length + i.vars.length then [truncatedId] else []) ++
        (shownFunctions i room ++ shownVariables i room).map (fun e ↦ safeId e.id) := by
    rw [entityLines]
    split <;> simp [Function.comp_def, Line.shape?, Shape.declared?, List.filterMap_map]
  rw [shapes, below, List.filterMap_filterMap, List.filterMap_append, List.filterMap_append, hcalls,
    hentities, List.append_nil]
  congr 1
  split <;> rfl

/-- No identifier is declared twice. -/
theorem Legible.nodup_declared (hi : Legible i) (room : Int)
    (cycles? : Option (List (List Text))) :
    ((shapes i room cycles?).filterMap Shape.declared?).Nodup := by
  have hentities : ((shownFunctions i room ++ shownVariables i room).map
      fun e ↦ safeId e.id).Nodup := ((shown_sublist i room).map _).nodup hi.nodup
  -- The notes are told from the entities by the underscore that they do not have.
  have hnote : ∀ id : Text, underscore ∉ id →
      id ∉ (shownFunctions i room ++ shownVariables i room).map fun e ↦ safeId e.id := by
    intro id hid hmem
    obtain ⟨e, he, rfl⟩ := List.mem_map.1 hmem
    exact hid (hi.underscore_mem e ((shown_sublist i room).subset he))
  have htruncated := hnote truncatedId (by decide)
  have hcircular := hnote circularId (by decide)
  have hdistinct : truncatedId ≠ circularId := by decide
  rw [filterMap_declared?_shapes]
  generalize (shownFunctions i room ++ shownVariables i room).map (fun e ↦ safeId e.id) = ids
    at hentities htruncated hcircular ⊢
  have hother : ∀ id ∈ ids, id ≠ circularId := fun id hid heq ↦ hcircular (heq ▸ hid)
  split <;> split <;> simp [List.nodup_append, hentities, htruncated, hdistinct]
  all_goals exact hother

/-- The arrows come after the boxes of the functions. -/
theorem entityShapes_isPrefix {above rest : List Shape} {source target : Text}
    (h : shapes i room cycles? = above ++ .arrow source target :: rest) :
    (entityLines i room).filterMap Line.shape? <+: above := by
  have hnone : .arrow source target ∉ (entityLines i room).filterMap Line.shape? := by
    intro hmem
    obtain ⟨l, hl, hshape⟩ := List.mem_filterMap.1 hmem
    simp only [entityLines, List.mem_append, List.mem_map] at hl
    rcases hl with (hnote | ⟨f, -, rfl⟩) | ⟨v, -, rfl⟩
    · split at hnote
      · rw [List.mem_singleton.1 hnote] at hshape
        cases hshape
      · cases hnote
    · cases hshape
    · cases hshape
  have hentities : (entityLines i room).filterMap Line.shape? <+: shapes i room cycles? := by
    rw [shapes, below, List.append_assoc, List.filterMap_append]
    exact List.prefix_append _ _
  have habove : above ++ [.arrow source target] <+: shapes i room cycles? := by
    rw [h]
    exact ⟨rest, List.append_cons .. |>.symm⟩
  rcases List.prefix_or_prefix_of_prefix hentities habove with hle | hle
  · rcases List.prefix_concat_iff.1 hle with heq | hle
    · exact absurd (heq ▸ List.mem_concat_self) hnone
    · exact hle
  · exact absurd (hle.subset List.mem_concat_self) hnone

/-- Both ends of an arrow are declared above it by the boxes of functions. -/
theorem exists_box_of_arrow {above rest : List Shape} {source target : Text}
    (h : shapes i room cycles? = above ++ .arrow source target :: rest) :
    ∀ id ∈ [source, target], ∃ f ∈ i.functions,
      id = safeId f.id ∧ .box id (escaped (Canvas.functionLabel f)) ∈ above := by
  have hbox {f : Entity} (hf : f ∈ shownFunctions i room) : ∃ g ∈ i.functions,
      safeId f.id = safeId g.id ∧
        .box (safeId f.id) (escaped (Canvas.functionLabel g)) ∈ above := by
    refine ⟨f, (prefix_within room i.functions).subset hf, rfl, (entityShapes_isPrefix h).subset ?_⟩
    refine List.mem_filterMap.2 ⟨.functionBox f.id (Canvas.functionLabel f), ?_, rfl⟩
    simp only [entityLines, List.mem_append, List.mem_map]
    exact .inl (.inr ⟨f, hf, rfl⟩)
  have hmem : .arrow source target ∈ shapes i room cycles? := by
    rw [h]
    exact List.mem_append_right _ List.mem_cons_self
  obtain ⟨l, hl, hshape⟩ := List.mem_filterMap.1 hmem
  cases drawn_of_mem_below hl with
  | call hf hg =>
    cases hshape
    simpa using ⟨hbox hf, hbox hg⟩
  | _ => cases hshape

/-! ### Flowcharts of trees -/

open Inventory (ofTree)
open Syntax (AbstractNode)

/-- A text is a flowchart in which the functions of an inventory are declared. -/
structure IsChart (i : Inventory) (t : Text) (ss : List Shape) : Prop where
  written : writtenLines t = Text.ofString "graph TD" :: ss.map Shape.text
  wellFormed : ∀ s ∈ ss, s.WellFormed
  /-- A line can be read in one way only. -/
  unique : ∀ s ∈ ss, ∀ s' : Shape, s'.WellFormed → s'.text = s.text → s' = s
  nodup_declared : (ss.filterMap Shape.declared?).Nodup
  /-- Both ends of an arrow are declared above it by the boxes of functions. -/
  declared : ∀ above source target rest, ss = above ++ .arrow source target :: rest →
    ∀ id ∈ [source, target], ∃ f ∈ i.functions,
      id = safeId f.id ∧ .box id (escaped (Canvas.functionLabel f)) ∈ above

/-- An inventory of a tree is legible if no name and no keyword in it holds a line feed. -/
theorem legible_ofTree {root : AbstractNode}
    (hname : ∀ e ∈ (ofTree root).functions ++ (ofTree root).vars, lineFeed ∉ e.name)
    (hkeyword : ∀ e ∈ (ofTree root).functions ++ (ofTree root).vars, ∀ k ∈ e.keyword, lineFeed ∉ k) :
    Legible (ofTree root) := by
  have hlisted : ((ofTree root).functions ++ (ofTree root).vars).Sublist (ofTree root).entities := by
    rw [Inventory.entities, List.append_assoc]
    exact List.sublist_append_left _ _
  obtain ⟨f, hf, heq⟩ := Inventory.exists_findings_of_preserved
    Inventory.preserved_oneLine trivial root fun _ _ ↦ trivial
  have hperm : (ofTree root).entities.Perm f.entities := heq ▸ f.entities_inventory_perm
  have hmem {e : Entity} (he : e ∈ (ofTree root).functions ++ (ofTree root).vars) :
      ∃ (d : Inventory.Declaration) (i : Nat), (∀ p ∈ d.parameters, lineFeed ∉ p) ∧ e = d.entity i :=
    hf.entities e (hperm.mem_iff.1 (hlisted.subset he))
  exact {
    nodup := (hlisted.map _).nodup ((hperm.map _).nodup_iff.2 f.nodup_safeId_entities)
    underscore_mem := by
      intro e he
      obtain ⟨d, i, -, rfl⟩ := hmem he
      exact underscore_mem_safeId_identifier d.kind d.name d.span.start.line i
    name := hname
    keyword := hkeyword
    parameters := by
      intro e he
      obtain ⟨d, i, hd, rfl⟩ := hmem he
      exact hd }

/-- The flowchart of a tree is well formed, whatever room there is and whatever the texts of parameters
are, if no name and no keyword that is drawn holds a line feed. -/
theorem isChart_text {root : AbstractNode}
    (hname : ∀ e ∈ (ofTree root).functions ++ (ofTree root).vars, lineFeed ∉ e.name)
    (hkeyword : ∀ e ∈ (ofTree root).functions ++ (ofTree root).vars, ∀ k ∈ e.keyword, lineFeed ∉ k)
    (room : Int) (cycles? : Option (List (List Text))) :
    ∃ ss, IsChart (ofTree root) (text (ofTree root) room cycles?) ss := by
  have hlegible := legible_ofTree hname hkeyword
  refine ⟨shapes (ofTree root) room cycles?, ?_⟩
  exact {
    written := hlegible.writtenLines_text room cycles?
    wellFormed := fun s hs ↦ hlegible.wellFormed hs
    unique := fun s hs s' hs' heq ↦ Shape.text_inj hs' (hlegible.wellFormed hs) heq
    nodup_declared := hlegible.nodup_declared room cycles?
    declared := fun _ _ _ _ h ↦ exists_box_of_arrow h }

/-- A recursive function with a quotation mark in its name and line feeds, arrows and brackets in its
parameter, and a variable that has no room. -/
theorem isChart_text_recursion :
    let part (kind : Syntax.NodeKind) (t : String) : Syntax.Part :=
      ⟨kind, Text.ofString t, ⟨⟨2, 0⟩, ⟨2, 9⟩⟩⟩
    let node (kind : Syntax.NodeKind) (roles : Syntax.Roles) (parameters : List String)
        (cs : List AbstractNode) : AbstractNode :=
      .node ⟨kind, ⟨⟨2, 0⟩, ⟨2, 9⟩⟩, some (Text.ofString "let"), roles,
        parameters.map Text.ofString⟩ cs
    let call := node .call { Syntax.Roles.none with callee := part .identifier "f\"" } [] []
    let root := node .functionDeclaration { Syntax.Roles.none with name := part .identifier "f\"" }
      ["[a = \"]\n --> \"]"] [call, node .variableDeclaration .none [] [node .variableDeclarator
        { Syntax.Roles.none with name := part .identifier "x" } [] []]]
    (∀ e ∈ (ofTree root).functions ++ (ofTree root).vars, lineFeed ∉ e.name) ∧
      (∀ e ∈ (ofTree root).functions ++ (ofTree root).vars, ∀ k ∈ e.keyword, lineFeed ∉ k) ∧
      ∃ ss, IsChart (ofTree root) (text (ofTree root) 1 none) ss := by
  intro part node call root
  have hfound : ofTree root = (Inventory.Findings.ofTree .root 0 root).inventory := by
    rw [Inventory.ofTree_eq_visitTree, Inventory.Findings.inventory_visitTree]
  have hname : ∀ e ∈ (ofTree root).functions ++ (ofTree root).vars, lineFeed ∉ e.name := by
    rw [hfound]
    decide +kernel
  have hkeyword : ∀ e ∈ (ofTree root).functions ++ (ofTree root).vars,
      ∀ k ∈ e.keyword, lineFeed ∉ k := by
    rw [hfound]
    decide +kernel
  exact ⟨hname, hkeyword, isChart_text hname hkeyword 1 none⟩

end CodeAtlas.Diagram
