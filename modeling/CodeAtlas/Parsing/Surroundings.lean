import CodeAtlas.Parsing.Source

/-!
# Tokens recognized by their surroundings

Some tokens have no text of their own: a statement may end where a line ends, a question mark opens
a choice or marks an optional parameter, the plain parts of templates and of markup reach as far as
the next special sign. `Surroundings.scan` looks at what stands at a position and says which of the
tokens that are possible there is found, and how far it reaches.
-/

namespace CodeAtlas.Parsing

/-- The contextual tokens. -/
inductive ContextToken where
  /-- The end of a statement that no semicolon marks. -/
  | statementEnd
  | templateText
  | ternaryMark
  | lineComment
  | markupText
  deriving BEq, Inhabited, DecidableEq

/-- Which contextual tokens are possible, and what else tells one kind of place from another. -/
structure Possible where
  statementEnd : Bool
  signatureEnd : Bool
  templateText : Bool
  ternaryMark : Bool
  lineComment : Bool
  markupText : Bool
  /-- Whether an operator may follow, that is, an expression has just ended. -/
  operator : Bool
  /-- Whether the place is inside a string or template. -/
  escape : Bool
  /-- Whether the place is inside a regular expression. -/
  regex : Bool

namespace Surroundings

/-- Blanks as far as contextual tokens are concerned: spaces that do not keep a line together. -/
def isBlank (c : Nat) : Bool :=
  (0x09 ≤ c && c ≤ 0x0D) || c == 0x20 || c == 0x1680 || (0x2000 ≤ c && c ≤ 0x2006)
    || (0x2008 ≤ c && c ≤ 0x200A) || c == 0x2028 || c == 0x2029 || c == 0x205F || c == 0x3000

/-- Letters, as far as they matter after a word that could be an operator. -/
def isLetter (c : Nat) : Bool :=
  (0x41 ≤ c && c ≤ 0x5A) || (0x61 ≤ c && c ≤ 0x7A) || (0xAA ≤ c && !isBlank c)

/-- A decimal digit. -/
def isDigit (c : Nat) : Bool := 0x30 ≤ c && c ≤ 0x39

/-- The first position from `i` on whose code point fails a test. -/
def skipWhile (s : Source) (test : Nat → Bool) (i : Nat) : Nat :=
  go (s.size - i) i
where
  /-- At most `fuel` positions are skipped. -/
  go : Nat → Nat → Nat
    | 0, i => i
    | fuel + 1, i => if test (s.at? i) then go fuel (i + 1) else i

/-- The end of the plain part of a template at `i`; `content` says whether it holds anything so
far. -/
def templateEnd (s : Source) : Nat → Nat → Bool → Option Nat
  | 0, _, _ => none
  | fuel + 1, i, content =>
    if s.size ≤ i then none
    else match s.at? i with
      | 0x60 => if content then some i else none
      | 0x5C => if content then some i else none
      | 0 => none
      | 0x24 =>
        if s.at? (i + 1) = 0x7B then (if content then some i else none)
        else templateEnd s fuel (i + 1) true
      | _ => templateEnd s fuel (i + 1) true

/-- The end of a block comment whose inside begins at `i`. -/
def blockCommentEnd (s : Source) : Nat → Nat → Nat
  | 0, i => i
  | fuel + 1, i =>
    if s.at? i = 0 then i
    else if s.at? i = 0x2A then
      if s.at? (i + 1) = 0x2F then i + 2 else blockCommentEnd s fuel (i + 1)
    else blockCommentEnd s fuel (i + 1)

/-- The position after blanks and comments from `i` on, whether a line comment was among them, and
whether they end at a slash that begins no comment. -/
def skipTrivia (s : Source) : Nat → Nat → Bool → Nat × Bool × Bool
  | 0, i, commented => (i, commented, false)
  | fuel + 1, i, commented =>
    let i := skipWhile s isBlank i
    if s.at? i = 0x2F then
      if s.at? (i + 1) = 0x2F then
        let j := skipWhile s (fun c ↦ c != 0 && c != 0x0A) (i + 2)
        skipTrivia s fuel j true
      else if s.at? (i + 1) = 0x2A then
        skipTrivia s fuel (blockCommentEnd s (s.size - i) (i + 2)) commented
      else (i + 1, commented, true)
    else (i, commented, false)

/-- Whether the text at `i` begins with a string. -/
def standsAt (s : Source) (t : String) (i : Nat) : Bool :=
  (t.toList.zip (List.range t.length)).all (fun (c, k) ↦ s.at? (i + k) = c.toNat)

/-- Whether a statement that ended on an earlier line stays ended in front of what stands at
`i`. -/
def endsBefore (s : Source) (p : Possible) (i : Nat) : Bool :=
  let c := s.at? i
  if [0x60, 0x2C, 0x2E, 0x3B, 0x2A, 0x25, 0x3E, 0x3C, 0x3D, 0x3F, 0x5E, 0x7C, 0x26, 0x2F, 0x3A].contains c
  then false
  else if c = 0x7B then !p.signatureEnd
  else if c = 0x28 || c = 0x5B then !p.operator
  else if c = 0x2B then s.at? (i + 1) = 0x2B
  else if c = 0x2D then s.at? (i + 1) = 0x2D
  else if c = 0x21 then s.at? (i + 1) != 0x3D
  else if c = 0x69 then
    if s.at? (i + 1) != 0x6E then true
    else if !isLetter (s.at? (i + 2)) then false
    else if !standsAt s "stanceof" (i + 2) then true
    else isLetter (s.at? (i + 10))
  else true

/-- Whether a statement ends at `i` although no semicolon stands there; also whether a line comment
was passed, and how far was looked. -/
def statementEnd (s : Source) (p : Possible) : Nat → Nat → Bool × Bool × Nat
  | 0, i => (true, false, i)
  | fuel + 1, i =>
    let c := s.at? i
    if c = 0 then (true, false, i)
    else if c = 0x7D then
      let j := skipWhile s isBlank (i + 1)
      (if s.at? j = 0x3A then p.operator else true, false, j)
    else if !isBlank c then (false, false, i)
    else if c = 0x0A then
      let (j, commented, slash) := skipTrivia s (s.size - i) (i + 1) false
      if slash then (false, commented, j) else (endsBefore s p j, commented, j)
    else statementEnd s p fuel (i + 1)

/-- The positions of a question mark at `i` that opens a choice. -/
def ternaryMark (s : Source) (i : Nat) : Option (Nat × Nat) :=
  let i := skipWhile s isBlank i
  if s.at? i != 0x3F then none
  else if s.at? (i + 1) = 0x3F || s.at? (i + 1) = 0x2E then none
  else
    let j := skipWhile s isBlank (i + 1)
    let c := s.at? j
    if c = 0x3A || c = 0x29 || c = 0x2C then none
    else if c = 0x2E && !isDigit (s.at? (j + 1)) then none
    else some (i, i + 1)

/-- The positions of a comment in the manner of markup, which runs to the end of the line. -/
def lineComment (s : Source) (i : Nat) : Option (Nat × Nat) :=
  let i := skipWhile s isBlank i
  let lineEnd := skipWhile s (fun c ↦ c != 0 && c != 0x0A && c != 0x2028 && c != 0x2029)
  if standsAt s "<!--" i then some (i, lineEnd (i + 4))
  else if standsAt s "-->" i then some (i, lineEnd (i + 3))
  else none

/-- The end of markup text at `i`, and whether it is anything but the blanks around a line end.
`fresh` says that only blanks have followed the last line feed. -/
def markupEnd (s : Source) : Nat → Nat → Bool → Bool → Nat × Bool
  | 0, i, _, content => (i, content)
  | fuel + 1, i, fresh, content =>
    let c := s.at? i
    if c = 0 || c = 0x3C || c = 0x3E || c = 0x7B || c = 0x7D || c = 0x26 then (i, content)
    else if c = 0x0A then markupEnd s fuel (i + 1) true content
    else
      let fresh := fresh && isBlank c
      markupEnd s fuel (i + 1) fresh (content || !fresh)

/-- The contextual token at `i`, with its first position and the position after it. -/
def scan (s : Source) (p : Possible) (i : Nat) : Option (ContextToken × Nat × Nat) :=
  let rest := s.size - i
  if p.templateText then
    if p.statementEnd then none
    else (templateEnd s (rest + 1) i false).map (fun j ↦ (.templateText, i, j))
  else
    let text := if p.markupText then markupEnd s rest i false false else (i, false)
    if text.2 then some (.markupText, i, text.1)
    else
      let at' := text.1
      if p.statementEnd || p.signatureEnd then
        let (found, commented, j) := statementEnd s p (rest + 1) at'
        if found then some (.statementEnd, at', at')
        else if !commented && p.ternaryMark && s.at? j = 0x3F then
          (ternaryMark s j).map (fun (a, b) ↦ (.ternaryMark, a, b))
        else none
      else if p.ternaryMark then (ternaryMark s at').map (fun (a, b) ↦ (.ternaryMark, a, b))
      else if p.lineComment && !p.operator && !p.escape && !p.regex then
        (lineComment s at').map (fun (a, b) ↦ (.lineComment, a, b))
      else none

end Surroundings

end CodeAtlas.Parsing
