import CodeAtlas.Text.Basic

/-!
# Line ends

Files end their lines by a line feed, a carriage return, or both. `Text.unifyLines` writes a line feed
for each of them. Main statement: `unifyLines_no_return`, no carriage return is left.
-/

namespace CodeAtlas.Text

/-- A line feed for every line end. -/
def unifyLines : Text → Text
  | [] => []
  | [c] => if c.val == 0x0D then [CodePoint.ofNat 0x0A] else [c]
  | c :: d :: rest =>
    if c.val == 0x0D then
      if d.val == 0x0A then CodePoint.ofNat 0x0A :: unifyLines rest
      else CodePoint.ofNat 0x0A :: unifyLines (d :: rest)
    else c :: unifyLines (d :: rest)

/-- No carriage return is left. -/
theorem unifyLines_no_return (t : Text) : ∀ c ∈ unifyLines t, c.val ≠ 0x0D := by
  fun_induction unifyLines t with
  | case1 => simp
  | case2 c h =>
    intro d hd
    rw [List.mem_singleton.1 hd]
    decide
  | case3 c h =>
    intro d hd
    rw [List.mem_singleton.1 hd]
    simpa using h
  | case4 c d rest h h' ih =>
    intro x hx
    rcases List.mem_cons.1 hx with rfl | hx
    · decide
    · exact ih x hx
  | case5 c d rest h h' ih =>
    intro x hx
    rcases List.mem_cons.1 hx with rfl | hx
    · decide
    · exact ih x hx
  | case6 c d rest h ih =>
    intro x hx
    rcases List.mem_cons.1 hx with rfl | hx
    · simpa using h
    · exact ih x hx

end CodeAtlas.Text
