import CodeAtlas.Proofs.Diagram.Calls
import CodeAtlas.Proofs.Text.Points

/-!
# The first and the last line of a flowchart

The text of a flowchart is cut at its line feeds. Names may hold line feeds, so that a line of the
flowchart can be several lines of the text; still the text begins with the header, and it ends with the
note on cycles only if the note has been put there: no other line ends as the note does, since labels of
functions end with a parenthesis and quotation marks in labels are spelled out. Main statements:
`head?_writtenLines_text` and `getLast?_writtenLines_text_iff`.
-/

namespace CodeAtlas.Diagram

/-- A text line by line. -/
def writtenLines (t : Text) : List Text := t.splitOn (CodePoint.ofNat 0x0A)

/-- The lines of a flowchart are written one after the other. -/
theorem writtenLines_text (i : Inventory) (room : Int) (cycles? : Option (List (List Text))) :
    writtenLines (text i room cycles?) =
      (lines i room cycles?).flatMap fun l ↦ writtenLines l.text := by
  have hne : (lines i room cycles?).map Line.text ≠ [] := by simp [lines]
  have hjoin := Text.splitOn_intercalate (CodePoint.ofNat 0x0A) hne
  rw [List.flatMap_map] at hjoin
  exact hjoin

/-- The text of a flowchart begins with its header. -/
theorem head?_writtenLines_text (i : Inventory) (room : Int)
    (cycles? : Option (List (List Text))) :
    (writtenLines (text i room cycles?)).head? = some (Text.ofString "graph TD") := by
  obtain ⟨rest, hrest⟩ : ∃ rest, lines i room cycles? = .header :: rest :=
    List.head?_eq_some_iff.1 (lines_head? i room cycles?)
  have hheader : writtenLines Line.header.text = [Text.ofString "graph TD"] :=
    List.splitOn_eq_singleton (by decide +kernel)
  rw [writtenLines_text, hrest, List.flatMap_cons, hheader]
  rfl

/-- The last line of a flowchart ends its text. -/
theorem getLast?_flatMap_writtenLines {ls : List Line} {l : Line} (h : ls.getLast? = some l) :
    (ls.flatMap fun l ↦ writtenLines l.text).getLast? = (writtenLines l.text).getLast? := by
  obtain ⟨before, rfl⟩ := List.getLast?_eq_some_iff.1 h
  have hne : writtenLines l.text ≠ [] := List.splitOn_ne_nil _ _
  rw [List.flatMap_append, List.flatMap_singleton, List.getLast?_append_of_ne_nil _ hne]

/-- The note on cycles comes after all other lines. -/
theorem lines_eq_append (i : Inventory) (room : Int) (cycles? : Option (List (List Text))) :
    lines i room cycles? = lines i room (some []) ++
      if (cycles?.getD i.calls.cycles).isEmpty then [] else [.circular] := by
  simp [lines]

/-- The note on cycles as it is written. -/
theorem text_circular : Line.circular.text =
    Text.ofString "    note2[\"⚠️ Circular dependencies detected\"]" := by
  decide +kernel

/-- A text does not end with the note on cycles if it ends otherwise. -/
theorem not_circular_suffix (before : Text) {ending : Text}
    (hlength : ending.length ≤ Line.circular.text.length) (h : ¬ ending <:+ Line.circular.text) :
    ¬ Line.circular.text <:+ before ++ ending := fun hsuffix ↦
  h (List.suffix_of_suffix_length_le (List.suffix_append before ending) hsuffix hlength)

/-- A call is written without brackets. -/
theorem bracket_notMem_text_call (caller callee : Text) :
    CodePoint.ofNat 0x5D ∉ (Line.call caller callee).text := by
  have hsafe (id : Text) : CodePoint.ofNat 0x5D ∉ safeId id := by
    intro h
    obtain ⟨c, -, hc⟩ := List.mem_map.1 h
    split at hc
    next hs =>
      rw [hc] at hs
      exact absurd hs (by decide)
    next => exact absurd hc (by decide)
  simp only [Line.text, List.mem_append, not_or]
  exact ⟨⟨⟨by decide, hsafe caller⟩, by decide⟩, hsafe callee⟩

/-- The label of a function ends with a parenthesis, also when it has been escaped. -/
theorem exists_escaped_functionLabel (e : Entity) :
    ∃ before, escaped (Canvas.functionLabel e) = before ++ Text.ofString ")" := by
  refine ⟨escaped (e.name ++ Text.ofString "(" ++ (Text.ofString ", ").intercalate e.parameters), ?_⟩
  rw [Canvas.functionLabel, escaped, List.flatMap_append]
  rfl

/-- No other line ends as the note on cycles does. -/
theorem not_circular_suffix_of_mem_lines {i : Inventory} {room : Int} {l : Line}
    (h : l ∈ lines i room (some [])) : ¬ Line.circular.text <:+ l.text := by
  simp only [lines, List.mem_append, List.mem_map] at h
  rcases h with ((((hheader | hnote) | ⟨f, -, rfl⟩) | ⟨v, -, rfl⟩) | hcall) | hcircular
  · rw [List.mem_singleton.1 hheader]
    exact not_circular_suffix [] (by decide +kernel) (by decide +kernel)
  · split at hnote
    · rw [List.mem_singleton.1 hnote, Line.text]
      exact not_circular_suffix _ (by decide +kernel) (by decide +kernel)
    · cases hnote
  · obtain ⟨before, hbefore⟩ := exists_escaped_functionLabel f
    rw [Line.text, hbefore, List.append_assoc _ _ (Text.ofString "\"]"), List.append_assoc before,
      ← List.append_assoc]
    exact not_circular_suffix _ (by decide +kernel) (by decide +kernel)
  · rw [Line.text]
    exact not_circular_suffix _ (by decide +kernel) (by decide +kernel)
  · obtain ⟨caller, callee, rfl⟩ := exists_eq_call_of_mem_callLines hcall
    intro hsuffix
    exact bracket_notMem_text_call caller callee (hsuffix.subset (by decide +kernel))
  · cases hcircular

/-- The text of a flowchart ends with the note on cycles exactly if there is a cycle. -/
theorem getLast?_writtenLines_text_iff (i : Inventory) (room : Int)
    (cycles? : Option (List (List Text))) :
    (writtenLines (text i room cycles?)).getLast? =
        some (Text.ofString "    note2[\"⚠️ Circular dependencies detected\"]") ↔
      cycles?.getD i.calls.cycles ≠ [] := by
  rw [← text_circular, writtenLines_text, lines_eq_append]
  split
  next hempty =>
    refine iff_of_false ?_ (by simpa using hempty)
    rw [List.append_nil]
    obtain ⟨l, hl⟩ : ∃ l, (lines i room (some [])).getLast? = some l :=
      Option.isSome_iff_exists.1 (by simp [lines])
    rw [getLast?_flatMap_writtenLines hl]
    intro hlast
    exact not_circular_suffix_of_mem_lines (List.mem_of_getLast? hl)
      (Text.suffix_of_getLast?_splitOn hlast)
  next hne =>
    refine iff_of_true ?_ (by simpa using hne)
    have hcircular : writtenLines Line.circular.text = [Line.circular.text] :=
      List.splitOn_eq_singleton (by decide +kernel)
    rw [getLast?_flatMap_writtenLines List.getLast?_concat, hcircular, List.getLast?_singleton]

end CodeAtlas.Diagram
