import CodeAtlas.Text.Printable

/-!
# Quoted texts

`Text.quoted` writes a text between quotes so that it can be told from its surroundings: in
apostrophes, unless it holds an apostrophe and no quotation mark. The quote, the backslash and all
code points that are not printable are escaped. Main statement: `quoted_of_plain`, a text with nothing
to escape stands unchanged between apostrophes.
-/

namespace CodeAtlas

namespace Text

/-- How one code point is written between the given quotes. -/
def escaped (quote c : CodePoint) : Text :=
  if c = quote || c.val == 0x5C then [CodePoint.ofNat 0x5C, c]
  else if c.val == 0x0A then ofString "\\n"
  else if c.val == 0x0D then ofString "\\r"
  else if c.val == 0x09 then ofString "\\t"
  else if c.isPrintable then [c]
  else if c.val < 0x100 then ofString "\\x" ++ hexDigits 2 c.val
  else if c.val < 0x10000 then ofString "\\u" ++ hexDigits 4 c.val
  else ofString "\\U" ++ hexDigits 8 c.val

/-- An apostrophe. -/
def apostrophe : CodePoint := CodePoint.ofNat 0x27

/-- A quotation mark. -/
def quotationMark : CodePoint := CodePoint.ofNat 0x22

/-- The quote that a text is written in. -/
def quoteFor (t : Text) : CodePoint :=
  if apostrophe ∈ t ∧ quotationMark ∉ t then quotationMark else apostrophe

/-- A text between quotes. -/
def quoted (t : Text) : Text :=
  let q := quoteFor t
  [q] ++ t.flatMap (escaped q) ++ [q]

/-- A text with nothing to escape stands unchanged between apostrophes. -/
theorem quoted_of_plain {t : Text}
    (h : ∀ c ∈ t, c ≠ apostrophe ∧ c.val ≠ 0x5C ∧ c.val ≠ 0x0A ∧ c.val ≠ 0x0D ∧ c.val ≠ 0x09 ∧
      c.isPrintable = true) :
    quoted t = [apostrophe] ++ t ++ [apostrophe] := by
  have hq : quoteFor t = apostrophe := if_neg fun hm ↦ (h _ hm.1).1 rfl
  have hf : ∀ u : Text, (∀ c ∈ u, c ∈ t) → u.flatMap (escaped apostrophe) = u := by
    intro u hu
    induction u with
    | nil => rfl
    | cons c cs ih =>
      obtain ⟨h₁, h₂, h₃, h₄, h₅, h₆⟩ := h c (hu c (.head _))
      have hc : escaped apostrophe c = [c] := by
        simp [escaped, h₁, h₂, h₃, h₄, h₅, h₆]
      rw [List.flatMap_cons, hc, ih fun d hd ↦ hu d (.tail _ hd)]
      rfl
  show [quoteFor t] ++ t.flatMap (escaped (quoteFor t)) ++ [quoteFor t] = _
  rw [hq, hf t fun _ hc ↦ hc]

end Text

end CodeAtlas
