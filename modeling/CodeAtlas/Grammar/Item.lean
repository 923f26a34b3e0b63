import CodeAtlas.Grammar.Production

/-!
# Items

An item is a production with a mark between two of its steps. Items that differ only in symbols in
front of the mark are one item, because what has been read no longer matters. `Items.ofProductions`
lists the items of a grammar with what follows each mark, which tokens each symbol can begin with,
and which rules are begun together when one is.
-/

namespace CodeAtlas.Grammar

/-- A set of tokens, one bit for each. -/
abbrev TokenSet := Nat

namespace TokenSet

/-- The set of one token. -/
def single (t : Nat) : TokenSet := 1 <<< t

/-- Whether a token belongs to a set. -/
def has (s : TokenSet) (t : Nat) : Bool := s.testBit t

/-- The members of a set below a bound. -/
def members (s : TokenSet) (bound : Nat) : List Nat :=
  (List.range bound).filter (fun t ↦ s.testBit t)

end TokenSet

/-- A production with a mark in it, after at least one step. -/
structure Item where
  rule : Nat
  /-- How many steps stand in front of the mark. -/
  read : Nat
  weight : Int
  length : Nat
  rank : Rank
  side : Option Side
  /-- The symbol after the mark. -/
  next : Option Nat
  /-- The tokens that the symbol after the next one begins with, if there is such a symbol. -/
  following : Option TokenSet
  /-- The item whose mark stands one step further. -/
  successor : Nat
  /-- A production that the item belongs to. -/
  production : Nat
  deriving Inhabited

/-- That beginning one rule also begins another: in front of which tokens, and whether also in
front of whatever follows the first rule. -/
structure Beginning where
  rule : Nat
  tokens : TokenSet
  inherits : Bool
  deriving Inhabited

/-- A grammar with its items. -/
structure Items where
  grammar : Productions
  /-- All productions, each with its rule. -/
  productions : Array (Nat × Production)
  items : Array Item
  /-- For each symbol, the rules that have a production beginning with it, with the item after it. -/
  openings : Array (List (Nat × Nat))
  /-- For each symbol, the tokens it begins with. -/
  first : Array TokenSet
  /-- For each rule, the rules begun with it. -/
  beginnings : Array (List Beginning)
  deriving Inhabited

namespace Items

/-- What tells items apart. -/
structure Key where
  rule : Nat
  read : Nat
  weight : Int
  length : Nat
  rank : Rank
  side : Option Side
  shown : List (Option Alias × Option String)
  rest : List Step
  deriving BEq, Hashable

/-- The key of the item of a production whose mark stands after `read` steps. -/
def keyOf (rule : Nat) (p : Production) (read : Nat) : Key :=
  let before := p.steps.take read
  { rule, read, weight := p.weight, length := p.steps.length
    rank := (before.getLast?.map (·.rank)).getD .none
    side := before.getLast?.bind (·.side)
    shown := before.map (fun s ↦ (s.alias?, s.field?))
    rest := p.steps.drop read }

/-- The tokens that each symbol begins with, after `fuel` rounds of looking through rules. -/
def firstSets (tokenCount variableCount : Nat) (heads : Array (List Nat)) :
    Nat → Array TokenSet → Array TokenSet
  | 0, sets => sets
  | fuel + 1, sets =>
    let next := (List.range variableCount).foldl (fun (acc : Array TokenSet) v ↦
      acc.setIfInBounds (tokenCount + v)
        ((heads.getD v []).foldl (fun s x ↦ s ||| acc.getD x 0) (acc.getD (tokenCount + v) 0))) sets
    if next == sets then sets else firstSets tokenCount variableCount heads fuel next

/-- The rules begun together with one rule: `todo` are those whose own beginnings have to be looked
at again. -/
def spread (edges : Array (List Beginning)) :
    Nat → List Nat → Array (Option (TokenSet × Bool)) → Array (Option (TokenSet × Bool))
  | 0, _, found => found
  | _ + 1, [], found => found
  | fuel + 1, v :: todo, found =>
    let here := (found.getD v none).getD (0, false)
    let (todo, found) := (edges.getD v []).foldl (fun (acc : List Nat × _) e ↦
      let old := acc.2.getD e.rule none
      let tokens := if e.inherits then e.tokens ||| here.1 else e.tokens
      let inherits := e.inherits && here.2
      let new := match old with
        | none => (tokens, inherits)
        | some o => (o.1 ||| tokens, o.2 || inherits)
      if old == some new then acc else (e.rule :: acc.1, acc.2.setIfInBounds e.rule (some new)))
      (todo, found)
    spread edges fuel todo found

/-- Whether one item stands in front of another: by how much has been read, then by rule. -/
def Key.before (a b : Key) : Bool :=
  if a.read != b.read then a.read < b.read
  else if a.rule != b.rule then a.rule < b.rule
  else if a.weight != b.weight then a.weight < b.weight
  else a.length < b.length

/-- The items of a grammar. -/
def ofProductions (g : Productions) : Items := Id.run do
  let tokenCount := g.tokens.size
  let variableCount := g.vars.size
  let symbolCount := tokenCount + variableCount
  let mut productions : Array (Nat × Production) := #[]
  for (v, i) in g.vars.toList.zip (List.range variableCount) do
    for p in v.productions do
      productions := productions.push (tokenCount + i, p)
  -- The tokens that symbols begin with.
  let heads : Array (List Nat) := g.vars.map (fun v ↦
    (v.productions.filterMap (fun p ↦ p.steps.head?.map (·.symbol))).eraseDups)
  let base : Array TokenSet := (Array.range symbolCount).map (fun i ↦
    if i < tokenCount then TokenSet.single i else 0)
  let first := firstSets tokenCount variableCount heads variableCount base
  -- Distinct items, in order.
  let mut keys : Array (Key × Nat) := #[]
  let mut seen : Std.HashMap Key Unit := ∅
  for ((v, p), i) in productions.toList.zip (List.range productions.size) do
    for d in List.range p.steps.length do
      let k := keyOf v p (d + 1)
      if !seen.contains k then
        seen := seen.insert k ()
        keys := keys.push (k, i)
  let sorted := (keys.toList.mergeSort (fun a b ↦ !b.1.before a.1)).toArray
  let number : Std.HashMap Key Nat := (sorted.toList.zip (List.range sorted.size)).foldl (fun m x ↦
    m.insert x.1.1 x.2) ∅
  let items := sorted.map (fun (k, i) ↦
    let p := (productions.getD i default).2
    { rule := k.rule, read := k.read, weight := k.weight, length := k.length
      rank := k.rank, side := k.side
      next := k.rest.head?.map (·.symbol)
      following := (k.rest.drop 1).head?.map (fun s ↦ first.getD s.symbol 0)
      successor := if k.rest.isEmpty then 0 else number.getD (keyOf k.rule p (k.read + 1)) 0
      production := i : Item })
  -- Productions by their first symbol.
  let mut openings : Array (List (Nat × Nat)) := Array.replicate symbolCount []
  for (v, p) in productions do
    match p.steps.head? with
    | none => pure ()
    | some s =>
      let entry := (v, number.getD (keyOf v p 1) 0)
      openings := openings.modify s.symbol (fun l ↦ if l.contains entry then l else entry :: l)
  -- Rules begun by rules.
  let edges : Array (List Beginning) := g.vars.map (fun v ↦
    v.productions.foldl (fun (acc : List Beginning) p ↦
      match p.steps with
      | [] => acc
      | s :: rest =>
        if s.symbol < tokenCount then acc
        else
          let tokens := (rest.head?.map (fun t ↦ first.getD t.symbol 0)).getD 0
          let inherits := rest.isEmpty
          let x := s.symbol - tokenCount
          if acc.any (fun b ↦ b.rule == x) then
            acc.map (fun b ↦ if b.rule == x then
              ⟨x, b.tokens ||| tokens, b.inherits || inherits⟩ else b)
          else ⟨x, tokens, inherits⟩ :: acc) [])
  let beginnings := (Array.range variableCount).map (fun v ↦
    let start : Array (Option (TokenSet × Bool)) :=
      (Array.replicate variableCount none).setIfInBounds v (some (0, true))
    let found := spread edges (variableCount * variableCount) [v] start
    (List.range variableCount).filterMap (fun i ↦
      (found.getD i none).map (fun (t, b) ↦ (⟨i, t, b⟩ : Beginning))))
  return { grammar := g, productions, items, openings, first, beginnings }

end Items

end CodeAtlas.Grammar
