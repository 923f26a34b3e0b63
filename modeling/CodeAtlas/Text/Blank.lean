import CodeAtlas.Text.Basic

/-!
# Blank code points

`CodePoint.isBlank` holds of the code points that separate words: the spaces, line and paragraph
separators of Unicode and the information separators U+001C to U+001F. A zero-width space or a
byte-order mark separates nothing. `Text.words` cuts a text at its blanks, `Text.collapse` writes the
words with one space between neighbours, and `Text.trim` drops the blanks at both ends. The main
statement is `isBlank_eq_false_of_mem_words`: no word holds a blank.
-/

namespace CodeAtlas

namespace CodePoint

/-- The white space of Unicode. -/
def isWhiteSpace (c : CodePoint) : Bool :=
  let n := c.val
  (0x09 ≤ n && n ≤ 0x0D) || n == 0x20 || n == 0x85 || n == 0xA0 || n == 0x1680 ||
    (0x2000 ≤ n && n ≤ 0x200A) || n == 0x2028 || n == 0x2029 || n == 0x202F || n == 0x205F ||
    n == 0x3000

/-- Whether a code point separates words: white space, and the information separators. -/
def isBlank (c : CodePoint) : Bool := c.isWhiteSpace || (0x1C ≤ c.val && c.val ≤ 0x1F)

end CodePoint

namespace Text

/-- Puts the word that has been begun, given in reverse, in front of the words that follow it. -/
def closeWord : Text → List Text → List Text
  | [], us => us
  | c :: cs, us => (c :: cs).reverse :: us

/-- The words of a text after the code points of a begun word, given in reverse. -/
def wordsAfter (w : Text) : Text → List Text
  | [] => closeWord w []
  | c :: cs => if c.isBlank then closeWord w (wordsAfter [] cs) else wordsAfter (c :: w) cs

/-- The longest parts of a text without a blank. -/
def words (t : Text) : List Text := wordsAfter [] t

/-- The words of a text with one space between neighbours. -/
def collapse (t : Text) : Text := (ofString " ").intercalate t.words

/-- Drops the code points of one kind at both ends of a text. -/
def trimWhere (p : CodePoint → Bool) (t : Text) : Text :=
  ((t.dropWhile p).reverse.dropWhile p).reverse

/-- Drops the blanks at both ends of a text. -/
def trim (t : Text) : Text := trimWhere CodePoint.isBlank t

/-- A word that is closed is the begun one or one of those behind it. -/
theorem mem_closeWord {w u : Text} {us : List Text} (h : u ∈ closeWord w us) :
    u = w.reverse ∨ u ∈ us := by
  cases w with
  | nil => exact .inr h
  | cons c cs => exact List.mem_cons.1 h

theorem isBlank_eq_false_of_mem_wordsAfter {w t : Text} (hw : ∀ c ∈ w, c.isBlank = false) :
    ∀ u ∈ wordsAfter w t, ∀ c ∈ u, c.isBlank = false := by
  have begun : ∀ c ∈ w.reverse, c.isBlank = false := fun c hc ↦ hw c (List.mem_reverse.1 hc)
  induction t generalizing w with
  | nil =>
    intro u hu
    rcases mem_closeWord hu with rfl | hu
    · exact begun
    · cases hu
  | cons x xs ih =>
    have none : ∀ c ∈ ([] : Text), c.isBlank = false := fun c hc ↦ by cases hc
    rw [wordsAfter]
    split
    next h =>
      intro u hu
      rcases mem_closeWord hu with rfl | hu
      · exact begun
      · exact ih none none u hu
    next h =>
      have more : ∀ c ∈ x :: w, c.isBlank = false := by
        intro c hc
        rcases List.mem_cons.1 hc with rfl | hc
        · exact Bool.eq_false_iff.2 h
        · exact hw c hc
      exact ih more fun c hc ↦ more c (List.mem_reverse.1 hc)

/-- No word holds a blank. -/
theorem isBlank_eq_false_of_mem_words {t u : Text} (h : u ∈ t.words) :
    ∀ c ∈ u, c.isBlank = false :=
  isBlank_eq_false_of_mem_wordsAfter (fun c hc ↦ by cases hc) u h

end Text

end CodeAtlas
