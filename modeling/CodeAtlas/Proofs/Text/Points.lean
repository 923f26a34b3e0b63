import CodeAtlas.Text.Blank

/-!
# The code points of composed texts

Joining puts nothing but the separator between texts, cutting and trimming only leave code points out,
and a text whose blanks are collapsed holds no blank but the space. Main statement: `mem_collapse`.
-/

namespace CodeAtlas

/-- The line feed. -/
def CodePoint.lineFeed : CodePoint := ofNat 0x0A

/-- The space. -/
def CodePoint.space : CodePoint := ofNat 0x20

open CodePoint (lineFeed space)

namespace Text

/-- An integer is written with digits and perhaps a minus sign. -/
theorem mem_ofInt {n : Int} {c : CodePoint} (h : c ∈ ofInt n) :
    c ∈ ofString "-" ∨ c.isDigit = true := by
  cases n with
  | ofNat n => exact .inr (isDigit_of_mem_ofNat h)
  | negSucc n =>
    rcases List.mem_append.1 h with hsign | hdigit
    · exact .inl hsign
    · exact .inr (isDigit_of_mem_ofNat hdigit)

/-- What stands in joined texts is from the separator or from one of them. -/
theorem mem_intercalate {sep : Text} {ts : List Text} {c : CodePoint} (h : c ∈ sep.intercalate ts) :
    c ∈ sep ∨ ∃ t ∈ ts, c ∈ t := by
  induction ts with
  | nil => cases h
  | cons t ts ih =>
    cases ts with
    | nil =>
      rw [List.intercalate_singleton] at h
      exact .inr ⟨t, List.mem_singleton_self t, h⟩
    | cons u us =>
      rw [List.intercalate_cons_cons] at h
      rcases List.mem_append.1 h with hfirst | hrest
      · rcases List.mem_append.1 hfirst with ht | hsep
        · exact .inr ⟨t, List.mem_cons_self, ht⟩
        · exact .inl hsep
      · rcases ih hrest with hsep | ⟨v, hv, hc⟩
        · exact .inl hsep
        · exact .inr ⟨v, List.mem_cons_of_mem t hv, hc⟩

/-- Joined texts are cut one after the other. -/
theorem splitOn_intercalate (c : CodePoint) {ts : List Text} (h : ts ≠ []) :
    ([c].intercalate ts).splitOn c = ts.flatMap (List.splitOn c) := by
  induction ts with
  | nil => exact absurd rfl h
  | cons t ts ih =>
    cases ts with
    | nil => rw [List.intercalate_singleton, List.flatMap_singleton]
    | cons u us =>
      rw [List.intercalate_cons_cons, List.append_assoc, List.singleton_append,
        List.splitOn_append_cons_self, ih (List.cons_ne_nil u us)]
      exact List.flatMap_cons.symm

/-- Joined texts end with the last of them. -/
theorem suffix_intercalate (sep : Text) {ts : List Text} {t : Text} (h : ts.getLast? = some t) :
    t <:+ sep.intercalate ts := by
  obtain ⟨before, rfl⟩ := List.getLast?_eq_some_iff.1 h
  induction before with
  | nil =>
    have hself : sep.intercalate [t] = t := List.intercalate_singleton
    exact ⟨[], hself.symm⟩
  | cons u us ih =>
    rw [List.cons_append, List.intercalate_cons_of_ne_nil (by simp)]
    exact (ih List.getLast?_concat).trans (List.suffix_append (u ++ sep) _)

/-- A text ends with its last piece. -/
theorem suffix_of_getLast?_splitOn {c : CodePoint} {t piece : Text}
    (h : (t.splitOn c).getLast? = some piece) : piece <:+ t := by
  have hsuffix := suffix_intercalate [c] h
  rwa [List.intercalate_splitOn] at hsuffix

/-- What stands in a piece of a text stands in the text, and it is not what the text is cut at. -/
theorem mem_and_ne_of_mem_piece {c x : CodePoint} {t piece : Text} (h : piece ∈ t.splitOn c)
    (hx : x ∈ piece) : x ∈ t ∧ x ≠ c := by
  induction t generalizing piece with
  | nil =>
    rw [List.splitOn_nil, List.mem_singleton] at h
    rw [h] at hx
    cases hx
  | cons y ys ih =>
    rw [List.splitOn_cons_eq_if_modifyHead] at h
    split at h
    next =>
      rcases List.mem_cons.1 h with rfl | hmem
      · cases hx
      · exact (ih hmem hx).imp_left (List.mem_cons_of_mem y)
    next hne =>
      obtain ⟨u, us, hsplit⟩ := List.exists_cons_of_ne_nil (List.splitOn_ne_nil c ys)
      rw [hsplit] at ih h
      rcases List.mem_cons.1 h with rfl | hmem
      · rcases List.mem_cons.1 hx with rfl | hx
        · exact ⟨List.mem_cons_self, by simpa using hne⟩
        · exact (ih List.mem_cons_self hx).imp_left (List.mem_cons_of_mem y)
      · exact (ih (List.mem_cons_of_mem u hmem) hx).imp_left (List.mem_cons_of_mem y)

/-- A piece of a text holds nothing but what stands in the text. -/
theorem subset_of_mem_splitOn {c : CodePoint} {t piece : Text} (h : piece ∈ t.splitOn c) :
    piece ⊆ t := fun _ hx ↦ (mem_and_ne_of_mem_piece h hx).1

/-- No piece of a text holds the code point at which the text is cut. -/
theorem notMem_of_mem_splitOn {c : CodePoint} {t piece : Text} (h : piece ∈ t.splitOn c) :
    c ∉ piece := fun hc ↦ (mem_and_ne_of_mem_piece h hc).2 rfl

/-- Trimming only leaves code points out. -/
theorem trimWhere_subset (p : CodePoint → Bool) (t : Text) : trimWhere p t ⊆ t := by
  intro c hc
  have hback : c ∈ (t.dropWhile p).reverse :=
    (List.dropWhile_suffix p).subset (List.mem_reverse.1 hc)
  exact (List.dropWhile_suffix p).subset (List.mem_reverse.1 hback)

/-- A word holds what has been begun and what stands in the text behind it. -/
theorem subset_of_mem_wordsAfter {w t u : Text} (h : u ∈ wordsAfter w t) : u ⊆ w ++ t := by
  induction t generalizing w with
  | nil =>
    rcases mem_closeWord h with rfl | hnil
    · simp
    · cases hnil
  | cons x xs ih =>
    unfold wordsAfter at h
    split at h
    next =>
      rcases mem_closeWord h with rfl | hmem
      · exact fun c hc ↦ List.mem_append_left _ (List.mem_reverse.1 hc)
      · exact fun c hc ↦ List.mem_append_right _ (List.mem_cons_of_mem x (ih hmem hc))
    next =>
      intro c hc
      rcases List.mem_append.1 (ih h hc) with hw | hxs
      · rcases List.mem_cons.1 hw with rfl | hw
        · exact List.mem_append_right _ List.mem_cons_self
        · exact List.mem_append_left _ hw
      · exact List.mem_append_right _ (List.mem_cons_of_mem x hxs)

/-- Collapsing leaves nothing but spaces and what is not blank in the text. -/
theorem mem_collapse {t : Text} {c : CodePoint} (h : c ∈ collapse t) :
    c = space ∨ (c ∈ t ∧ c.isBlank = false) := by
  rcases mem_intercalate h with hspace | ⟨u, hu, hc⟩
  · exact .inl (List.mem_singleton.1 hspace)
  · exact .inr ⟨subset_of_mem_wordsAfter hu hc, isBlank_eq_false_of_mem_words hu c hc⟩

/-- A text whose blanks are collapsed stands on one line. -/
theorem lineFeed_notMem_collapse (t : Text) : lineFeed ∉ collapse t := by
  intro h
  rcases mem_collapse h with hspace | ⟨-, hblank⟩
  · exact absurd hspace (by decide)
  · exact absurd hblank (by decide)

end Text

end CodeAtlas
