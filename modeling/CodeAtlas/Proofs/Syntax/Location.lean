import CodeAtlas.Proofs.Text.Points
import CodeAtlas.Proofs.Text.Utf8
import CodeAtlas.Syntax.Location
import Mathlib.Data.Prod.Lex

/-!
# Lines of a text and positions in its octets

A text is cut into lines at its line feeds, a position counts the octets that are line feeds. Both agree,
since an octet of an encoded text is the line feed only where the text has one
(`lineFeed_notMem_encode`): a position in the octets of a text leads to one of its lines and to a column
within it (`exists_line_at`), also if it is in the middle of a code point. Positions grow with the offset,
first by lines and then by columns (`at_le_at`).
-/

namespace CodeAtlas

open Syntax

/-! ### Octets of a text -/

namespace Utf8

theorem encode_append (s t : Text) : encode (s ++ t) = encode s ++ encode t :=
  List.flatMap_append

theorem lineFeed_ne_toUInt8 {n : Nat} (h : n ≠ 0x0A) (h' : n < 0x100) : lineFeed ≠ n.toUInt8 := by
  intro heq
  have hnat : 0x0A = n := by
    rw [← toNat_toUInt8 h', ← heq]
    rfl
  exact h hnat.symm

/-- The octets of any other code point are no line feeds. -/
theorem lineFeed_notMem_encodePoint {c : CodePoint} (h : c ≠ CodePoint.lineFeed) :
    lineFeed ∉ encodePoint c := by
  have hc : c.val ≠ 0x0A := fun hval ↦ h (CodePoint.ext hval)
  have hbound : c.val < 0x110000 := c.isLt
  simp only [encodePoint]
  split
  next hone =>
    rw [List.mem_singleton]
    exact lineFeed_ne_toUInt8 hc (by omega)
  next hmore =>
    -- In the longer forms no octet is below 0x80.
    split
    · simp only [List.mem_cons, List.not_mem_nil, or_false, not_or]
      refine ⟨?_, ?_⟩ <;> exact lineFeed_ne_toUInt8 (by omega) (by omega)
    · split
      · simp only [List.mem_cons, List.not_mem_nil, or_false, not_or]
        refine ⟨?_, ?_, ?_⟩ <;> exact lineFeed_ne_toUInt8 (by omega) (by omega)
      · simp only [List.mem_cons, List.not_mem_nil, or_false, not_or]
        refine ⟨?_, ?_, ?_, ?_⟩ <;> exact lineFeed_ne_toUInt8 (by omega) (by omega)

/-- The octets of a text without line feeds hold none either. -/
theorem lineFeed_notMem_encode {t : Text} (h : CodePoint.lineFeed ∉ t) : lineFeed ∉ encode t := by
  intro hmem
  obtain ⟨c, hc, hoctet⟩ := List.mem_flatMap.1 hmem
  refine lineFeed_notMem_encodePoint ?_ hoctet
  rintro rfl
  exact h hc

end Utf8

/-! ### Positions -/

namespace Syntax

theorem lineEnds_append (a b : List UInt8) : lineEnds (a ++ b) = lineEnds a + lineEnds b :=
  List.count_append

theorem lineEnds_of_notMem {b : List UInt8} (h : lineFeed ∉ b) : lineEnds b = 0 :=
  List.count_eq_zero.2 h

/-- What holds no line feed is added to the last line. -/
theorem lastLine_append_of_notMem (a : List UInt8) {b : List UInt8} (h : lineFeed ∉ b) :
    lastLine (a ++ b) = lastLine a ++ b := by
  have hb : ∀ o ∈ b.reverse, (o != lineFeed) = true := by
    intro o ho
    have hne : o ≠ lineFeed := by
      rintro rfl
      exact h (List.mem_reverse.1 ho)
    simpa using hne
  rw [lastLine, lastLine, List.reverse_append, List.takeWhile_append_of_pos hb, List.reverse_append,
    List.reverse_reverse]

/-- Behind a line feed a new line begins. -/
theorem lastLine_append_lineFeed (a b : List UInt8) :
    lastLine (a ++ lineFeed :: b) = lastLine b := by
  have hstop (l : List UInt8) :
      (l ++ lineFeed :: a.reverse).takeWhile (· != lineFeed) = l.takeWhile (· != lineFeed) := by
    induction l with
    | nil => simp
    | cons o l ih => simp only [List.cons_append, List.takeWhile_cons, ih]
  rw [lastLine, lastLine, List.reverse_append, List.reverse_cons, List.append_assoc,
    List.singleton_append, hstop]

namespace Position

/-- In octets without line feeds only the column grows. -/
theorem after_of_notMem {b : List UInt8} (h : lineFeed ∉ b) : after b = ⟨1, b.length⟩ := by
  have hlast : lastLine b = b := lastLine_append_of_notMem [] h
  rw [after, lineEnds_of_notMem h, hlast]
  rfl

/-- A line in front adds one to the line and nothing to the column. -/
theorem after_cons_line {a : List UInt8} (h : lineFeed ∉ a) (b : List UInt8) :
    after (a ++ lineFeed :: b) = ⟨(after b).line + 1, (after b).column⟩ := by
  have hends : lineEnds (a ++ lineFeed :: b) = lineEnds b + 1 := by
    rw [lineEnds_append, lineEnds_of_notMem h, Nat.zero_add]
    exact List.count_cons_self
  rw [after, after, hends, lastLine_append_lineFeed]
  rfl

/-- A position in the octets of several lines is in one of them: its line counts the lines up to
that one, and its column is no greater than the number of octets there. -/
theorem exists_line_at {lines : List Text} (hne : lines ≠ [])
    (hlines : ∀ l ∈ lines, CodePoint.lineFeed ∉ l) {offset : Nat}
    (hoffset : offset ≤ (Utf8.encode ([CodePoint.lineFeed].intercalate lines)).length) :
    ∃ (i column : Nat) (line : Text), lines[i]? = some line ∧ column ≤ (Utf8.encode line).length ∧
      Position.at (Utf8.encode ([CodePoint.lineFeed].intercalate lines)) offset = ⟨i + 1, column⟩ := by
  -- The first line is passed or not; if it is, the offset is counted from behind its line feed.
  induction lines generalizing offset with
  | nil => exact absurd rfl hne
  | cons line rest ih =>
    have hline : lineFeed ∉ Utf8.encode line :=
      Utf8.lineFeed_notMem_encode (hlines line List.mem_cons_self)
    have hhere (h : offset ≤ (Utf8.encode line).length) :
        Position.at (Utf8.encode line) offset = ⟨1, offset⟩ := by
      rw [Position.at, after_of_notMem fun hmem ↦ hline (List.mem_of_mem_take hmem),
        List.length_take_of_le h]
    cases rest with
    | nil =>
      rw [List.intercalate_singleton] at hoffset ⊢
      exact ⟨0, offset, line, rfl, hoffset, hhere hoffset⟩
    | cons line' rest =>
      have hjoin : Utf8.encode ([CodePoint.lineFeed].intercalate (line :: line' :: rest)) =
          Utf8.encode line ++
            lineFeed :: Utf8.encode ([CodePoint.lineFeed].intercalate (line' :: rest)) := by
        rw [List.intercalate_cons_cons, Utf8.encode_append, Utf8.encode_append, List.append_assoc]
        rfl
      rw [hjoin] at hoffset ⊢
      by_cases hle : offset ≤ (Utf8.encode line).length
      · exact ⟨0, offset, line, rfl, hle, (at_append_of_le hle).trans (hhere hle)⟩
      · obtain ⟨k, rfl⟩ : ∃ k, offset = (Utf8.encode line).length + (k + 1) :=
          ⟨offset - (Utf8.encode line).length - 1, by omega⟩
        rw [List.length_append, List.length_cons] at hoffset
        obtain ⟨i, column, l, hl, hcolumn, hat⟩ := ih (List.cons_ne_nil _ _)
          (fun l hl ↦ hlines l (List.mem_cons_of_mem _ hl)) (show k ≤ _ by omega)
        refine ⟨i + 1, column, l, hl, hcolumn, ?_⟩
        rw [Position.at, List.take_append, List.take_of_length_le (by omega),
          Nat.add_sub_cancel_left, List.take_succ_cons, after_cons_line hline, ← Position.at, hat]
        rfl

/-- Behind more octets the line is greater, or it is the same and the column is not smaller. -/
theorem after_le_after_append (a b : List UInt8) :
    toLex ((after a).line, (after a).column) ≤
      toLex ((after (a ++ b)).line, (after (a ++ b)).column) := by
  rw [Prod.Lex.toLex_le_toLex]
  by_cases hb : lineFeed ∈ b
  · have hends : 0 < lineEnds b := List.count_pos_iff.2 hb
    refine .inl ?_
    simp only [after, lineEnds_append]
    omega
  · refine .inr ⟨?_, ?_⟩
    · simp only [after, lineEnds_append, lineEnds_of_notMem hb, Nat.add_zero]
    · simp only [after, lastLine_append_of_notMem a hb, List.length_append]
      omega

/-- Positions grow with the offset. -/
theorem at_le_at (octets : List UInt8) {m n : Nat} (h : m ≤ n) :
    toLex ((Position.at octets m).line, (Position.at octets m).column) ≤
      toLex ((Position.at octets n).line, (Position.at octets n).column) := by
  obtain ⟨b, hb⟩ := List.take_prefix_take_left h
  rw [Position.at, Position.at, ← hb]
  exact after_le_after_append _ _

end Position

end Syntax

end CodeAtlas
