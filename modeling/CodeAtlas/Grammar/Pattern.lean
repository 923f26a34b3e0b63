/-!
# Patterns of characters

A pattern is a regular expression over code points, given as numbers. It is matched by taking one
code point at a time off the pattern (`Pattern.step`); a text belongs to a pattern when what is left
after its last code point admits the empty text. Main statement: `accepts_union`, the simplifying
constructor `union` admits what the plain one admits.
-/

namespace CodeAtlas.Grammar

/-- A set of code points: the members of some intervals, or everything outside of them. -/
structure CharSet where
  outside : Bool
  intervals : List (Nat × Nat)
  deriving BEq, Hashable, Inhabited

namespace CharSet

/-- Whether a code point belongs to the set. -/
def contains (s : CharSet) (c : Nat) : Bool :=
  s.outside != s.intervals.any (fun r ↦ r.1 ≤ c && c ≤ r.2)

/-- The set of one code point. -/
def single (c : Nat) : CharSet := ⟨false, [(c, c)]⟩

/-- The code points from `lo` to `hi`. -/
def range (lo hi : Nat) : CharSet := ⟨false, [(lo, hi)]⟩

/-- The characters of a string. -/
def anyOf (s : String) : CharSet := ⟨false, s.toList.map (fun c ↦ (c.toNat, c.toNat))⟩

/-- Every code point but the characters of a string. -/
def noneOf (s : String) : CharSet := ⟨true, s.toList.map (fun c ↦ (c.toNat, c.toNat))⟩

/-- The union of two sets that are given by their members. -/
def or (a b : CharSet) : CharSet := ⟨false, a.intervals ++ b.intervals⟩

/-- The complement of a set. -/
def complement (a : CharSet) : CharSet := ⟨!a.outside, a.intervals⟩

end CharSet

/-- A regular expression over code points. -/
inductive Pattern where
  /-- Admits no text. -/
  | never
  /-- Admits the empty text. -/
  | empty
  /-- Admits each text of one code point of the set. -/
  | one (s : CharSet)
  | seq (a b : Pattern)
  | alt (a b : Pattern)
  /-- Admits any number of repetitions. -/
  | star (a : Pattern)
  deriving BEq, Hashable, Inhabited

namespace Pattern

/-- Whether the empty text belongs to the pattern. -/
def nullable : Pattern → Bool
  | never => false
  | empty => true
  | one _ => false
  | seq a b => a.nullable && b.nullable
  | alt a b => a.nullable || b.nullable
  | star _ => true

/-- Whether no text at all belongs to the pattern, as far as its form shows. -/
def isNever : Pattern → Bool
  | never => true
  | _ => false

/-- Alternation without branches that admit nothing. -/
def union (a b : Pattern) : Pattern :=
  match a, b with
  | never, b => b
  | a, never => a
  | a, b => alt a b

/-- Sequence without parts that admit nothing or only the empty text. -/
def chain (a b : Pattern) : Pattern :=
  match a, b with
  | never, _ => never
  | _, never => never
  | empty, b => b
  | a, b => seq a b

/-- What is left of a pattern after one code point. -/
def step (c : Nat) : Pattern → Pattern
  | never => never
  | empty => never
  | one s => if s.contains c then empty else never
  | seq a b =>
    if a.nullable then union (chain (a.step c) b) (b.step c) else chain (a.step c) b
  | alt a b => union (a.step c) (b.step c)
  | star a => chain (a.step c) (star a)

/-- Whether a text belongs to a pattern. -/
def accepts (p : Pattern) : List Nat → Bool
  | [] => p.nullable
  | c :: cs => (p.step c).accepts cs

/-- Simplified alternation admits what either branch admits. -/
theorem accepts_union (a b : Pattern) (t : List Nat) :
    (union a b).accepts t = (a.accepts t || b.accepts t) := by
  have never_accepts : ∀ t, never.accepts t = false := by
    intro t
    induction t with
    | nil => rfl
    | cons c cs ih => simpa [accepts, step] using ih
  have alt_accepts : ∀ (a b : Pattern), (alt a b).accepts t = (a.accepts t || b.accepts t) →
      (union a b).accepts t = (a.accepts t || b.accepts t) := by
    intro a b h
    unfold union
    split
    · simp [never_accepts]
    · simp [never_accepts]
    · exact h
  induction t generalizing a b with
  | nil => exact alt_accepts a b rfl
  | cons c cs ih =>
    refine alt_accepts a b ?_
    show (union (a.step c) (b.step c)).accepts cs = _
    rw [ih]
    · rfl
    · intro a b h
      unfold union
      split
      · simp [never_accepts]
      · simp [never_accepts]
      · exact h

/-- The pattern of one text. -/
def text (s : String) : Pattern :=
  s.toList.foldr (fun c p ↦ chain (one (CharSet.single c.toNat)) p) empty

/-- One of several patterns. -/
def anyOf (ps : List Pattern) : Pattern := ps.foldr union never

/-- Several patterns after one another. -/
def inOrder (ps : List Pattern) : Pattern := ps.foldr chain empty

/-- A pattern or nothing. -/
def optional (p : Pattern) : Pattern := union p empty

/-- One or more repetitions. -/
def plus (p : Pattern) : Pattern := chain p (star p)

/-- At least `lo` and at most `lo + more` repetitions. -/
def times (p : Pattern) (lo : Nat) : Nat → Pattern
  | 0 => inOrder (List.replicate lo p)
  | more + 1 => union (times p lo more) (inOrder (List.replicate (lo + more + 1) p))

/-- The length of the longest text of the pattern that stands in `cs` at `pos`, tried over at most
`fuel` code points; `len` of them have been taken, and `best` is the longest length so far. -/
def longestFrom (cs : Array Nat) (pos : Nat) : Nat → Pattern → Nat → Option Nat → Option Nat
  | 0, _, _, best => best
  | fuel + 1, p, len, best =>
    match cs[pos + len]? with
    | none => best
    | some c =>
      let q := p.step c
      if q.isNever then best
      else longestFrom cs pos fuel q (len + 1) (if q.nullable then some (len + 1) else best)

/-- The length of the longest text of the pattern that stands in `cs` at `pos`. -/
def longest? (p : Pattern) (cs : Array Nat) (pos : Nat) : Option Nat :=
  longestFrom cs pos (cs.size - pos) p 0 (if p.nullable then some 0 else none)

end Pattern

end CodeAtlas.Grammar
