import CodeAtlas.Grammar.Pattern

/-!
# Grammar rules

A grammar is a list of named rules. A rule says which sequences of tokens and other rules it admits;
around these it carries what a conflict between two readings is decided by (`ranked`, `favoured`) and
what the tree shows (`labelled`, `renamed`). Nothing is computed here; the grammar is data.
-/

namespace CodeAtlas.Grammar

/-- How strongly a part of a rule binds: by a number, or by a name whose place the grammar's
orderings fix. -/
inductive Rank where
  | none
  | level (n : Int)
  | named (name : String)
  deriving BEq, Hashable, Inhabited, DecidableEq

/-- Which of two equally ranked readings is taken: the one that closes the group on the left first,
or the one that goes on. -/
inductive Side where
  | left
  | right
  deriving BEq, Hashable, Inhabited, DecidableEq

/-- The name that a part is shown under in place of its own. -/
structure Alias where
  kind : String
  named : Bool
  deriving BEq, Hashable, Inhabited, DecidableEq

/-- What a rule admits. -/
inductive Rule where
  | blank
  /-- A token with this text. -/
  | lit (text : String)
  /-- A token with a text of the pattern. An immediate token admits no blank in front of it; of two
  tokens that match, one with the higher priority is taken. -/
  | lexeme (immediate : Bool) (priority : Int) (name : Option String) (p : Pattern)
  /-- Another rule. -/
  | ref (name : String)
  | seq (rs : List Rule)
  | choice (rs : List Rule)
  /-- One or more repetitions. -/
  | many (r : Rule)
  | ranked (rank : Rank) (side : Option Side) (r : Rule)
  /-- Of several readings that are all possible, those with the greater weight are preferred. -/
  | favoured (weight : Int) (r : Rule)
  | labelled (field : String) (r : Rule)
  | renamed (shown : Alias) (r : Rule)
  deriving Inhabited

namespace Rule

/-- A rule or nothing. -/
def opt (r : Rule) : Rule := choice [r, blank]

/-- Any number of repetitions. -/
def rep (r : Rule) : Rule := choice [many r, blank]

/-- One or more, with commas between them. -/
def commaSep1 (r : Rule) : Rule := seq [r, rep (seq [lit ",", r])]

/-- Any number, with commas between them. -/
def commaSep (r : Rule) : Rule := opt (commaSep1 r)

/-- One or more, with a separator between them. -/
def sepBy1 (sep r : Rule) : Rule := seq [r, rep (seq [sep, r])]

/-- The rule shown as a node of the given kind. -/
def as (kind : String) (r : Rule) : Rule := renamed ⟨kind, true⟩ r

/-- The rule shown as a plain token. -/
def asToken (kind : String) (r : Rule) : Rule := renamed ⟨kind, false⟩ r

/-- A part that binds by name. -/
def prec (name : String) (rs : List Rule) : Rule := ranked (.named name) none (seq rs)

/-- A part that binds by name and closes on the left. -/
def precLeft (name : String) (rs : List Rule) : Rule := ranked (.named name) (some .left) (seq rs)

/-- A part that binds by name and goes on to the right. -/
def precRight (name : String) (rs : List Rule) : Rule := ranked (.named name) (some .right) (seq rs)

/-- A part that closes on the left. -/
def closing (rs : List Rule) : Rule := ranked (.level 0) (some .left) (seq rs)

/-- A part that goes on to the right. -/
def going (rs : List Rule) : Rule := ranked (.level 0) (some .right) (seq rs)

end Rule

/-- One place in an ordering of ranks. -/
inductive RankEntry where
  /-- The parts with this rank. -/
  | rank (name : String)
  /-- All parts of this rule. -/
  | rule (name : String)
  deriving BEq, Hashable, Inhabited

/-- A token that is recognized by its surroundings and not by a pattern. -/
structure Contextual where
  name : String
  /-- Whether the grammar also gives a text or a pattern under this name, which then recognizes it. -/
  hasPattern : Bool
  deriving BEq, Inhabited

/-- A grammar: rules in order, the first of them the start. -/
structure Rulebook where
  rules : List (String × Rule)
  /-- Tokens that may stand anywhere. -/
  extras : List String
  /-- The blanks between tokens. -/
  blanks : CharSet
  contextual : List Contextual
  /-- The token that keywords are special cases of. -/
  word : String
  /-- Rules that are not shown although their name does not say so. -/
  supertypes : List String
  /-- Rules that are replaced by their alternatives wherever they are used. -/
  inlined : List String
  /-- Orderings of ranks, the strongest first. -/
  orderings : List (List RankEntry)
  /-- Tokens that are recognized only where they are expected, because elsewhere their texts are
  those of other tokens: rules, or fixed texts. -/
  confined : List String

end CodeAtlas.Grammar
