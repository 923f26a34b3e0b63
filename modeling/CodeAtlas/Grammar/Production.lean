import CodeAtlas.Grammar.Rule
import Std.Data.HashMap

/-!
# Grammars as productions

`Productions.ofGrammar` numbers the tokens of a grammar, gives each repetition a rule of its own,
and writes every rule as a list of alternatives that are plain sequences of symbols. Symbols are
numbered in one series: the end of the text, the word token, the other tokens in the order in which
the rules use them, the contextual tokens, and then the rules.
-/

namespace CodeAtlas.Grammar

/-- How a token shows in the tree. -/
inductive Showing where
  | named
  | plain
  | hidden
  deriving BEq, Inhabited, DecidableEq

/-- What a token is recognized by. -/
inductive Matcher where
  | text (codes : List Nat)
  | pattern (p : Pattern)
  /-- Nothing but its surroundings. -/
  | contextual
  | endOfText
  deriving Inhabited

/-- A token of the grammar. -/
structure Token where
  kind : String
  showing : Showing
  matcher : Matcher
  immediate : Bool
  priority : Int
  /-- The other name under which the tree shows the token wherever the grammar renames it always in
  the same way. -/
  shown : Option Alias
  deriving Inhabited

/-- One symbol of a production, with the rank and side that hold after it. -/
structure Step where
  symbol : Nat
  rank : Rank
  side : Option Side
  alias? : Option Alias
  field? : Option String
  deriving BEq, Hashable, Inhabited

/-- One alternative of a rule. -/
structure Production where
  weight : Int
  steps : List Step
  deriving BEq, Hashable, Inhabited

/-- A rule of the grammar, or one that stands for a repetition. -/
structure Variable where
  kind : String
  showing : Showing
  repeated : Bool
  productions : List Production
  shown : Option Alias
  deriving Inhabited

/-- A grammar whose rules are lists of productions. -/
structure Productions where
  tokens : Array Token
  vars : Array Variable
  extras : List Nat
  blanks : CharSet
  word : Nat
  /-- The contextual tokens, by the names they have in the grammar. -/
  contextual : List (String × Nat)
  orderings : List (List RankEntry)
  /-- The tokens that are recognized only where they are expected. -/
  confined : List Nat
  deriving Inhabited

namespace Productions

/-- What a token is told from other tokens by. -/
inductive TokenKey where
  | text (s : String)
  | pattern (immediate : Bool) (priority : Int) (name : Option String) (p : Pattern)
  deriving BEq, Hashable

/-- The token that a rule consists of, if it consists of one. -/
def ownToken : Rule → Option TokenKey
  | .lit s => some (.text s)
  | .lexeme i n name p => some (.pattern i n name p)
  | _ => none

mutual

/-- The tokens of a rule in order of use. -/
def tokensOf : Rule → List TokenKey
  | .blank => []
  | .lit s => [.text s]
  | .lexeme i n name p => [.pattern i n name p]
  | .ref _ => []
  | .seq rs => tokensOfAll rs
  | .choice rs => tokensOfAll rs
  | .many r => tokensOf r
  | .ranked _ _ r => tokensOf r
  | .favoured _ r => tokensOf r
  | .labelled _ r => tokensOf r
  | .renamed _ r => tokensOf r

/-- The tokens of several rules in order of use. -/
def tokensOfAll : List Rule → List TokenKey
  | [] => []
  | r :: rs => tokensOf r ++ tokensOfAll rs

end

/-- The numbering of symbols by what they are called in the grammar. -/
structure Names where
  token : Std.HashMap TokenKey Nat
  rule : Std.HashMap String Nat

/-- The rules that stand for repetitions, made so far: their alternatives, and where each set of
alternatives is found. -/
structure Repetitions where
  first : Nat
  made : Array (String × List Production)
  seen : Std.HashMap (List Production) Nat

/-- What the parts of a rule inherit from the parts around them. -/
structure Surroundings where
  rank : Rank
  side : Option Side
  alias? : Option Alias
  field? : Option String
  last : Bool

/-- What a rule inherits from nothing. -/
def Surroundings.none : Surroundings := ⟨.none, Option.none, Option.none, Option.none, true⟩

/-- The step of one symbol in its surroundings. -/
def Surroundings.step (s : Surroundings) (symbol : Nat) : Production :=
  ⟨0, [⟨symbol, s.rank, s.side, s.alias?, s.field?⟩]⟩

/-- Changes the last step of a sequence. -/
def updateLast (f : Step → Step) : List Step → List Step
  | [] => []
  | [s] => [f s]
  | s :: t :: ss => s :: updateLast f (t :: ss)

/-- The weight that stands out more. -/
def heavier (a b : Int) : Int := if b.natAbs > a.natAbs then b else a

/-- The sequences that consist of one from each of two lists. -/
def Production.product (ps qs : List Production) : List Production :=
  ps.flatMap (fun p ↦ qs.map (fun q ↦ ⟨heavier p.weight q.weight, p.steps ++ q.steps⟩))

/-- Removes all but the first of equal productions. -/
def distinct (ps : List Production) : List Production :=
  (ps.foldl (fun (acc : List Production × Std.HashMap Production Unit) p ↦
    if acc.2.contains p then acc else (p :: acc.1, acc.2.insert p ())) ([], {})).1.reverse

mutual

/-- The alternatives of a rule; `name` is the rule that repetitions are named after. -/
def expand (names : Names) (name : String) (s : Surroundings) :
    Rule → StateM Repetitions (List Production)
  | .blank => pure [⟨0, []⟩]
  | .lit t => pure [s.step ((names.token.get? (.text t)).getD 0)]
  | .lexeme i n nm p => pure [s.step ((names.token.get? (.pattern i n nm p)).getD 0)]
  | .ref r => pure [s.step ((names.rule.get? r).getD 0)]
  | .seq rs => expandSeq names name s rs
  | .choice rs => expandChoice names name s rs
  | .many r => do
    let inner ← expand names name .none r
    let state ← get
    match state.seen.get? inner with
    | some i => pure [s.step i]
    | none =>
      let i := state.first + state.made.size
      set { state with
        made := state.made.push (name, inner)
        seen := state.seen.insert inner i }
      pure [s.step i]
  | .ranked rank side r => do
    let inner : Surroundings := { s with
      rank := if rank == .none then s.rank else rank
      side := if side.isNone then s.side else side }
    let ps ← expand names name inner r
    if s.last then pure ps
    else pure (ps.map (fun p ↦ { p with steps := updateLast (fun t ↦ { t with
      rank := if rank == .none then t.rank else s.rank
      side := if side.isNone then t.side else s.side }) p.steps }))
  | .favoured w r => do
    let ps ← expand names name s r
    pure (ps.map (fun p ↦ { p with weight := heavier w p.weight }))
  | .labelled f r => expand names name { s with field? := some f } r
  | .renamed a r => expand names name { s with alias? := some a } r

/-- The alternatives of a sequence of rules. -/
def expandSeq (names : Names) (name : String) (s : Surroundings) :
    List Rule → StateM Repetitions (List Production)
  | [] => pure [⟨0, []⟩]
  | r :: rs => do
    let head ← expand names name { s with last := s.last && rs.isEmpty } r
    let tail ← expandSeq names name s rs
    pure (Production.product head tail)

/-- The alternatives of several rules. -/
def expandChoice (names : Names) (name : String) (s : Surroundings) :
    List Rule → StateM Repetitions (List Production)
  | [] => pure []
  | r :: rs => do
    let head ← expand names name s r
    let tail ← expandChoice names name s rs
    pure (head ++ tail)

end

/-- Puts the alternatives of inlined rules in the place of the rules, up to `fuel` levels deep. -/
def inline (inlined : Nat → Option (List Production)) : Nat → Production → List Production
  | 0, p => [p]
  | fuel + 1, p =>
    let before := p.steps.takeWhile (fun s ↦ (inlined s.symbol).isNone)
    match p.steps.drop before.length with
    | [] => [p]
    | s :: after =>
      ((inlined s.symbol).getD []).flatMap (fun q ↦
        let placed := q.steps.map (fun t ↦ { t with
          alias? := if s.alias?.isSome then s.alias? else t.alias?
          field? := if s.field?.isSome then s.field? else t.field? })
        let placed := updateLast (fun t ↦ { t with
          rank := if t.rank == .none then s.rank else t.rank
          side := if t.side.isNone then s.side else t.side }) placed
        inline inlined fuel ⟨heavier p.weight q.weight, before ++ placed ++ after⟩)

/-- Whether the tree hides what goes by this name. -/
def isHiddenName (name : String) : Bool := name.toList.head? == some '_'

/-- How often each name is used for a symbol: with which aliases, and whether also without one. -/
structure Uses where
  plain : Bool
  aliases : List (Alias × Nat)

/-- Counts one more use. -/
def Uses.add (u : Uses) : Option Alias → Uses
  | none => { u with plain := true }
  | some a =>
    if u.aliases.any (fun x ↦ x.1 == a) then
      { u with aliases := u.aliases.map (fun x ↦ if x.1 == a then (x.1, x.2 + 1) else x) }
    else { u with aliases := u.aliases ++ [(a, 1)] }

/-- The alias that is used most, if the symbol is never used without one. -/
def Uses.usual (u : Uses) : Option Alias :=
  if u.plain then none
  else (u.aliases.foldl (fun (best : Option (Alias × Nat)) x ↦
    match best with
    | none => some x
    | some b => if x.2 > b.2 then some x else some b) none).map Prod.fst

/-- The tokens of a grammar in the order of their numbers, without the contextual ones, and how
often each is used. -/
def collectTokens (g : Rulebook) : Array TokenKey × Std.HashMap TokenKey Nat :=
  let used := tokensOfAll (g.rules.map Prod.snd)
  let wordKey := (g.rules.find? (fun r ↦ r.1 == g.word)).bind (fun r ↦ ownToken r.2)
  let start : Array TokenKey × Std.HashMap TokenKey Nat :=
    match wordKey with
    | some k => (#[k], (∅ : Std.HashMap TokenKey Nat).insert k 0)
    | none => (#[], ∅)
  used.foldl (fun (acc : Array TokenKey × Std.HashMap TokenKey Nat) k ↦
    match acc.2.get? k with
    | some n => (acc.1, acc.2.insert k (n + 1))
    | none => (acc.1.push k, acc.2.insert k 1)) start

/-- The token of a key. A token that is the whole of one rule and is used nowhere else goes by the
name of that rule. -/
def tokenOf (owner : Option String) : TokenKey → Token
  | .text s =>
    { kind := owner.getD s
      showing := match owner with
        | some n => if isHiddenName n then .hidden else .named
        | none => .plain
      matcher := .text (s.toList.map Char.toNat)
      immediate := false, priority := 0, shown := none }
  | .pattern i n name p =>
    { kind := owner.getD (name.getD "")
      showing := match owner, name with
        | some n, _ => if isHiddenName n then .hidden else .named
        | none, some _ => .plain
        | none, none => .hidden
      matcher := .pattern p
      immediate := i, priority := n, shown := none }

/-- The token of a name that only the surroundings recognize. -/
def contextualToken (name : String) : Token :=
  { kind := name
    showing := if isHiddenName name then .hidden else .named
    matcher := .contextual
    immediate := false, priority := 0, shown := none }

/-- The productions of a grammar. -/
def ofGrammar (g : Rulebook) : Productions := Id.run do
  let (keys, counts) := collectTokens g
  -- Rules that are nothing but a token of their own.
  let start := (g.rules.head?.map Prod.fst).getD ""
  let owners : Std.HashMap TokenKey String := g.rules.foldl (fun m r ↦
    match ownToken r.2 with
    | some k => if r.1 != start && counts.getD k 0 == 1 then m.insert k r.1 else m
    | none => m) ∅
  let outer := g.contextual.filter (fun c ↦ !c.hasPattern)
  let mut tokens : Array Token := #[{ contextualToken "_end" with matcher := .endOfText }]
  let mut tokenNumber : Std.HashMap TokenKey Nat := ∅
  let mut ruleNumber : Std.HashMap String Nat := ∅
  for k in keys do
    tokenNumber := tokenNumber.insert k tokens.size
    match owners.get? k with
    | some n => ruleNumber := ruleNumber.insert n tokens.size
    | none => pure ()
    tokens := tokens.push (tokenOf (owners.get? k) k)
  for c in outer do
    ruleNumber := ruleNumber.insert c.name tokens.size
    tokens := tokens.push (contextualToken c.name)
  let rules := g.rules.filter (fun r ↦ (ruleNumber.get? r.1).isNone)
  let mut next := tokens.size
  for r in rules do
    ruleNumber := ruleNumber.insert r.1 next
    next := next + 1
  let names : Names := ⟨tokenNumber, ruleNumber⟩
  -- Plain alternatives, with a rule for each repetition.
  let mut plain : Array (List Production) := #[]
  let mut state : Repetitions := ⟨next, #[], ∅⟩
  for r in rules do
    let (ps, s) := (expand names r.1 .none r.2).run state
    state := s
    plain := plain.push (distinct ps)
  for (i, m) in (List.range state.made.size).zip state.made.toList do
    let self := Surroundings.none.step (next + i)
    plain := plain.push (distinct (Production.product [self] [self] ++ m.2))
  -- Inlining.
  let tokenCount := tokens.size
  let isInlined : Std.HashMap Nat Unit := g.inlined.foldl (fun m n ↦
    match ruleNumber.get? n with
    | some i => if i < tokenCount then m else m.insert i ()
    | none => m) ∅
  let alternatives : Nat → Option (List Production) := fun i ↦
    if isInlined.contains i then some (plain.getD (i - tokenCount) []) else none
  let mut vars : Array Variable := #[]
  for (i, ps) in (List.range plain.size).zip plain.toList do
    let kind := match rules[i]? with
      | some r => r.1
      | none => ((state.made[i - rules.length]?).map Prod.fst).getD "" ++ "_repeat"
    let repeated := i ≥ rules.length
    let hidden := repeated || isHiddenName kind || g.supertypes.contains kind
    vars := vars.push
      { kind := kind, showing := if hidden then .hidden else .named, repeated := repeated,
        productions := if isInlined.contains (tokenCount + i) then []
          else distinct (ps.flatMap (inline alternatives 24))
        shown := none }
  -- Names that symbols have wherever they are used.
  let mut uses : Array Uses := Array.replicate (tokenCount + vars.size) ⟨false, []⟩
  for v in vars do
    for p in v.productions do
      for s in p.steps do
        uses := uses.modify s.symbol (fun u ↦ u.add s.alias?)
  let extras := g.extras.filterMap ruleNumber.get?
  for e in extras do
    uses := uses.modify e (fun u ↦ u.add none)
  return {
    tokens := tokens.mapIdx (fun i t ↦ { t with shown := (uses[i]?).bind Uses.usual })
    vars := vars.mapIdx (fun i v ↦
      { v with shown := (uses[tokenCount + i]?).bind Uses.usual })
    extras := extras, blanks := g.blanks
    word := (ruleNumber.get? g.word).getD 0
    contextual := g.contextual.filterMap (fun c ↦
      match ruleNumber.get? c.name with
      | some i => some (c.name, i)
      | none => (tokenNumber.get? (.text c.name)).map (fun i ↦ (c.name, i)))
    orderings := g.orderings
    confined := g.confined.filterMap (fun n ↦
      match ruleNumber.get? n with
      | some i => some i
      | none => tokenNumber.get? (.text n)) }

end Productions

end CodeAtlas.Grammar
