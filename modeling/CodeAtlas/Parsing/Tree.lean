import CodeAtlas.Parsing.Lexer

/-!
# Trees under construction

A tree covers a part of the source together with the blanks in front of it. Each tree carries what
it costs to have errors in it, so that readings can be compared without looking into them again.
-/

namespace CodeAtlas.Parsing

open CodeAtlas.Grammar

/-- What errors cost: each recovery, each token put in, and each tree, octet and line skipped. -/
structure Prices where
  recovery : Nat
  missing : Nat
  skippedTree : Nat
  skippedOctet : Nat
  skippedLine : Nat

/-- The prices in use. -/
def prices : Prices := ⟨500, 110, 100, 1, 30⟩

/-- What is known about a tree without its children. -/
structure TreeInfo where
  symbol : Nat
  production : Nat
  /-- Where the blanks in front begin. -/
  origin : Nat
  start : Nat
  stop : Nat
  visible : Bool
  /-- Whether the tree may stand anywhere. -/
  extra : Bool
  /-- Whether the tree is a token that was put in. -/
  missing : Bool
  /-- Whether the tree is a token with the text of a keyword. -/
  keyword : Bool
  /-- The cost of the errors in the children and in the tree itself. -/
  ownCost : Nat
  weight : Int
  visibleChildren : Nat
  visibleDescendants : Nat
  deriving Inhabited

/-- A tree. -/
inductive Tree where
  | node (info : TreeInfo) (children : List Tree)
  deriving Inhabited

namespace Tree

/-- What is known about the tree without its children. -/
def info : Tree → TreeInfo
  | node i _ => i

/-- The children of the tree. -/
def children : Tree → List Tree
  | node _ cs => cs

/-- What the errors in the tree cost. -/
def cost (t : Tree) : Nat :=
  if t.info.missing then prices.missing + prices.recovery else t.info.ownCost

mutual

/-- Compares two trees by symbol and number of children, then child by child. -/
def compareTrees : Tree → Tree → Ordering
  | .node a as, .node b bs =>
    if a.symbol != b.symbol then compare a.symbol b.symbol
    else if as.length != bs.length then compare as.length bs.length
    else compareAll as bs

/-- Compares trees one by one. -/
def compareAll : List Tree → List Tree → Ordering
  | a :: as, b :: bs =>
    match compareTrees a b with
    | .eq => compareAll as bs
    | o => o
  | _, _ => .eq

end

/-- Whether `right` is to be preferred to `left`: fewer errors, then more weight, then the smaller
symbols. -/
def isWorseThan (left right : Tree) : Bool :=
  if right.cost < left.cost then true
  else if left.cost < right.cost then false
  else if left.info.weight < right.info.weight then true
  else if right.info.weight < left.info.weight then false
  else if 0 < left.cost then true
  else compareTrees left right == .gt

/-- The tree as one that may stand anywhere, or not. -/
def withExtra (e : Bool) : Tree → Tree
  | node i cs => node { i with extra := e } cs

/-- The tree with another symbol. -/
def withSymbol (s : Nat) (visible : Bool) : Tree → Tree
  | node i cs => node { i with symbol := s, visible := visible } cs

end Tree

/-- What trees are made with: the source and what the symbols of the grammar are. -/
structure Language where
  items : Items
  lexicon : Lexicon
  deriving Inhabited

namespace Language

/-- The language of a grammar. -/
def ofGrammar (g : Rulebook) : Language :=
  let p := Productions.ofGrammar g
  ⟨Items.ofProductions p, Lexicon.ofProductions p⟩

/-- The productions of the language. -/
def productions (l : Language) : Productions := l.items.grammar

/-- The number of tokens. -/
def tokenCount (l : Language) : Nat := l.productions.tokens.size

/-- The symbol of a part that could not be read. -/
def errorSymbol (l : Language) : Nat := l.tokenCount + l.productions.vars.size

/-- The symbol of skipped tokens inside a part that could not be read. -/
def skippedSymbol (l : Language) : Nat := l.errorSymbol + 1

/-- Whether a symbol shows in the tree under its own name or its usual one. -/
def isVisible (l : Language) (s : Nat) : Bool :=
  if s < l.tokenCount then
    let t := l.productions.tokens.getD s default
    t.shown.isSome || t.showing != .hidden
  else if s < l.errorSymbol then
    let v := l.productions.vars.getD (s - l.tokenCount) default
    v.shown.isSome || v.showing != .hidden
  else s == l.errorSymbol

/-- The tree of a token. -/
def leaf (l : Language) (symbol origin start stop : Nat) (keyword : Bool) : Tree :=
  .node { symbol, production := 0, origin, start, stop, visible := l.isVisible symbol
          extra := false, missing := false, keyword, ownCost := 0, weight := 0
          visibleChildren := 0, visibleDescendants := 0 } []

/-- The tree of a token that was put in at a position. -/
def missingLeaf (l : Language) (symbol pos : Nat) : Tree :=
  match l.leaf symbol pos pos pos false with
  | .node i cs => .node { i with missing := true } cs

/-- What has been added up over the first children of a tree. -/
structure Sums where
  cost : Nat
  weight : Int
  visibleChildren : Nat
  visibleDescendants : Nat
  /-- How many children that may not stand anywhere have been passed. -/
  place : Nat

/-- Adds one child to the sums. -/
def addChild (l : Language) (faulty : Bool) (aliases : Array Bool) (s : Sums) (t : Tree) : Sums :=
  let i := t.info
  let inner := !t.children.isEmpty
  let cost := s.cost + (if i.symbol == l.skippedSymbol then 0 else t.cost)
  let cost :=
    if faulty && !i.extra && !(i.symbol == l.errorSymbol && !inner) then
      if i.visible then cost + prices.skippedTree
      else if inner then cost + prices.skippedTree * i.visibleChildren
      else cost
    else cost
  let shown := i.visible || (!i.extra && i.symbol != 0 && aliases.getD s.place false)
  { cost
    weight := s.weight + i.weight
    visibleChildren := s.visibleChildren + (if shown then 1 else if inner then i.visibleChildren else 0)
    visibleDescendants := s.visibleDescendants + i.visibleDescendants + (if shown then 1 else 0)
    place := if i.extra then s.place else s.place + 1 }

/-- The tree of a rule or error with the given children, of which there may be none at position
`pos`. -/
def branch (l : Language) (src : Source) (symbol production pos : Nat) (children : List Tree) :
    Tree :=
  let faulty := symbol == l.errorSymbol || symbol == l.skippedSymbol
  let aliases : Array Bool :=
    if faulty then #[]
    else ((l.items.productions.getD production default).2.steps.map (fun s ↦ s.alias?.isSome)).toArray
  let sums := children.foldl (l.addChild faulty aliases) ⟨0, 0, 0, 0, 0⟩
  let origin := (children.head?.map (·.info.origin)).getD pos
  let start := (children.head?.map (·.info.start)).getD pos
  let stop := (children.getLast?.map (·.info.stop)).getD pos
  let own :=
    if faulty then prices.recovery + prices.skippedOctet * src.octetsBetween start stop
      + prices.skippedLine * src.rowsBetween start stop
    else 0
  .node { symbol, production, origin, start, stop, visible := l.isVisible symbol
          extra := false, missing := false, keyword := false
          ownCost := sums.cost + own, weight := sums.weight
          visibleChildren := sums.visibleChildren
          visibleDescendants := sums.visibleDescendants } children

/-- The count of visible trees in a tree, itself included; skipped tokens count once more. -/
def nodeCount (l : Language) (t : Tree) : Nat :=
  t.info.visibleDescendants + (if t.info.visible then 1 else 0)
    + (if t.info.symbol == l.skippedSymbol then 1 else 0)

end Language

end CodeAtlas.Parsing
