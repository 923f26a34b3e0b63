import CodeAtlas.Grammar.Item

/-!
# The automaton of a grammar

A state of the automaton is a set of items, each with the tokens that may follow its production.
States are made when they are first needed and kept, so a run makes only the states it visits. What
a state does with a token is decided by `Automaton.resolve`: of several possible moves the ranks and
sides of the items keep some, and what they leave undecided is tried side by side.
-/

namespace CodeAtlas.Parsing

open CodeAtlas.Grammar

/-- A move of the automaton on a token. -/
inductive Move where
  /-- Take the token and go to a state. A `repeating` move only says that the token could also go on
  with a repetition; it is never made. -/
  | shift (state : Nat) (repeating : Bool)
  /-- Take the token as one that may stand anywhere. -/
  | shiftExtra
  /-- Replace the last `count` trees by one of the rule. -/
  | reduce (rule count : Nat) (weight : Int) (production : Nat)
  | accept
  | recover
  deriving BEq, Inhabited

/-- A state: its items with the tokens that may follow each, and the rules begun in it with the
tokens that may follow each (the empty set for rules that are not begun). -/
structure State where
  kernel : Array (Nat × TokenSet)
  begun : Array TokenSet
  /-- The tokens that can be taken. -/
  shifts : TokenSet
  /-- The tokens in front of which a production ends. -/
  ends : TokenSet
  deriving Inhabited

/-- The states made so far, where each is found, and what has been computed about them. -/
structure Automaton where
  items : Items
  states : Array State
  index : Std.HashMap (Array (Nat × TokenSet)) Nat
  successors : Std.HashMap Nat Nat
  moves : Std.HashMap Nat (List Move)
  deriving Inhabited

namespace Automaton

/-- The number of the state in which no item is left and tokens are skipped. -/
def errorState : Nat := 0

/-- The number of the first state. -/
def startState : Nat := 1

/-- The number of the state after the whole text. -/
def finalState : Nat := 2

/-- The number of tokens of the grammar. -/
def tokenCount (a : Automaton) : Nat := a.items.grammar.tokens.size

/-- The number of symbols of the grammar. -/
def symbolCount (a : Automaton) : Nat := a.tokenCount + a.items.grammar.vars.size

/-- Completes a set of items: the rules begun with the symbol after each mark. -/
def complete (g : Items) (kernel : Array (Nat × TokenSet)) : State := Id.run do
  let tokenCount := g.grammar.tokens.size
  let mut begun : Array TokenSet := Array.replicate g.grammar.vars.size 0
  let mut shifts : TokenSet := 0
  let mut ends : TokenSet := 0
  for (i, la) in kernel do
    let item := g.items.getD i default
    match item.next with
    | none => ends := ends ||| la
    | some x =>
      shifts := shifts ||| g.first.getD x 0
      if tokenCount ≤ x then
        let after := item.following.getD la
        for b in g.beginnings.getD (x - tokenCount) [] do
          begun := begun.modify b.rule (fun s ↦ s ||| b.tokens ||| (if b.inherits then after else 0))
  return ⟨kernel, begun, shifts, ends⟩

/-- The first state: the start rule is begun in front of the end of the text. -/
def start (g : Items) : State := Id.run do
  let tokenCount := g.grammar.tokens.size
  let mut begun : Array TokenSet := Array.replicate g.grammar.vars.size 0
  for b in g.beginnings.getD 0 [] do
    begun := begun.modify b.rule (fun s ↦ s ||| b.tokens ||| (if b.inherits then 1 else 0))
  return ⟨#[], begun, g.first.getD tokenCount 0, 1⟩

/-- The automaton of a grammar before its first run. -/
def ofItems (g : Items) : Automaton where
  items := g
  states := #[⟨#[], #[], 0, 0⟩, start g, ⟨#[], #[], 0, 1⟩]
  index := ∅
  successors := ∅
  moves := ∅

/-- A state of the automaton. -/
def state (a : Automaton) (s : Nat) : State := a.states.getD s default

/-- Adds an entry to a list of items, joining the tokens of equal items. -/
def insertEntry (e : Nat × TokenSet) : List (Nat × TokenSet) → List (Nat × TokenSet)
  | [] => [e]
  | x :: xs =>
    if e.1 < x.1 then e :: x :: xs
    else if e.1 = x.1 then (x.1, x.2 ||| e.2) :: xs
    else x :: insertEntry e xs

/-- The items after a symbol has been read in a state. -/
def kernelAfter (g : Items) (s : State) (x : Nat) : Array (Nat × TokenSet) :=
  let tokenCount := g.grammar.tokens.size
  let advanced := s.kernel.toList.filterMap (fun (i, la) ↦
    let item := g.items.getD i default
    if item.next == some x then some (item.successor, la) else none)
  let opened := (g.openings.getD x []).filterMap (fun (v, i) ↦
    let la := s.begun.getD (v - tokenCount) 0
    if la == 0 then none else some (i, la))
  ((advanced ++ opened).foldl (fun acc e ↦ insertEntry e acc) []).toArray

/-- The state after a symbol, making it if it has not been made yet; 0 if no item goes on with the
symbol. -/
def goto (a : Automaton) (s x : Nat) : Nat × Automaton :=
  let key := s * a.symbolCount + x
  match a.successors.get? key with
  | some t => (t, a)
  | none =>
    if s = startState && x = a.tokenCount then
      (finalState, { a with successors := a.successors.insert key finalState })
    else
      let kernel := kernelAfter a.items (a.state s) x
      if kernel.isEmpty then (0, { a with successors := a.successors.insert key 0 })
      else match a.index.get? kernel with
        | some t => (t, { a with successors := a.successors.insert key t })
        | none =>
          let t := a.states.size
          (t, { a with
            states := a.states.push (complete a.items kernel)
            index := a.index.insert kernel t
            successors := a.successors.insert key t })

/-- Whether an entry of an ordering is meant by a rank or by one of some rules. -/
def entryMatches (g : Items) (rank : Rank) (rules : List Nat) : RankEntry → Bool
  | .rank n => rank == .named n
  | .rule n => rules.any (fun r ↦
      (g.grammar.vars.getD (r - g.grammar.tokens.size) default).kind == n)

/-- Compares two ranks by one ordering; `none` if it does not mention both. The flags say which of
the two has been met. -/
def compareIn (g : Items) (l : Rank) (ls : List Nat) (r : Rank) (rs : List Nat) :
    List RankEntry → Bool → Bool → Option Ordering
  | [], _, _ => none
  | e :: es, sawLeft, sawRight =>
    if entryMatches g l ls e then
      if sawRight then some .lt else compareIn g l ls r rs es true sawRight
    else if entryMatches g r rs e then
      if sawLeft then some .gt else compareIn g l ls r rs es sawLeft true
    else compareIn g l ls r rs es sawLeft sawRight

/-- Compares two ranks, each with the rules it stands in. -/
def compareRanks (g : Items) (l : Rank) (ls : List Nat) (r : Rank) (rs : List Nat) : Ordering :=
  let byName := (g.grammar.orderings.findSome? (fun o ↦ compareIn g l ls r rs o false false)).getD
    .eq
  match l, r with
  | .level m, .level n => if m != 0 || n != 0 then compare m n else byName
  | .level m, .none => if m != 0 then compare m 0 else byName
  | .none, .level n => if n != 0 then compare 0 n else byName
  | _, _ => byName

/-- The reductions that are possible on one token, with what they are compared by. -/
structure Reductions where
  moves : List Move
  rank : Rank
  rules : List Nat
  left : Bool
  right : Bool
  neither : Bool

/-- No reduction. -/
def Reductions.none : Reductions := ⟨[], .none, [], false, false, false⟩

/-- Adds a finished item to the reductions, unless they bind more strongly; it takes their place if
it binds more strongly than they do. -/
def Reductions.add (g : Items) (rs : Reductions) (item : Item) : Reductions :=
  let move := Move.reduce item.rule item.read item.weight item.production
  let note (rs : Reductions) : Reductions :=
    { rs with
      moves := rs.moves ++ [move]
      rank := item.rank
      rules := if rs.rules.contains item.rule then rs.rules else rs.rules ++ [item.rule]
      left := rs.left || item.side == some .left
      right := rs.right || item.side == some .right
      neither := rs.neither || item.side == Option.none }
  if rs.moves.isEmpty then note rs
  else match compareRanks g item.rank [item.rule] rs.rank rs.rules with
    | .gt => note .none
    | .eq => note rs
    | .lt => rs

/-- What a state does with a token that both ends productions and can be taken: the reductions, the
move that takes it, or both. -/
def decide (g : Items) (s : State) (token : Nat) (rs : Reductions) (next : Nat) : List Move :=
  let goingOn := s.kernel.toList.filterMap (fun (i, _) ↦
    let item := g.items.getD i default
    match item.next with
    | some x => if (g.first.getD x 0).has token then some item else none
    | none => none)
  let finished := s.kernel.toList.filterMap (fun (i, la) ↦
    let item := g.items.getD i default
    if item.next.isNone && la.has token then some item else none)
  let repeated (r : Nat) : Bool :=
    (g.grammar.vars.getD (r - g.grammar.tokens.size) default).repeated
  let all := goingOn ++ finished
  match all with
  | [] => rs.moves ++ [.shift next false]
  | i :: _ =>
    if repeated i.rule && all.all (fun j ↦ j.rule == i.rule) then
      rs.moves ++ [.shift next true]
    else
      let orders := goingOn.map (fun j ↦ compareRanks g j.rank [j.rule] rs.rank rs.rules)
      let more := orders.contains .gt
      let less := orders.contains .lt
      if more && !less then [.shift next false]
      else if less && !more then rs.moves
      else if !less && !more then
        if rs.left && !rs.right && !rs.neither then rs.moves
        else if rs.right && !rs.left && !rs.neither then [.shift next false]
        else rs.moves ++ [.shift next false]
      else rs.moves ++ [.shift next false]

/-- What a state does with a token, decided anew. -/
def resolve (a : Automaton) (s token : Nat) : List Move × Automaton :=
  let g := a.items
  let st := a.state s
  if s = errorState then ([.recover], a)
  else if s = finalState then (if token = 0 then [.accept] else
    if g.grammar.extras.contains token then [.shiftExtra] else [], a)
  else
    let rs :=
      if s = startState then
        if token = 0 then ⟨[.reduce (a.tokenCount) 0 0 0], .none, [], false, false, true⟩
        else Reductions.none
      else if st.ends.has token then
        st.kernel.toList.foldl (fun rs (i, la) ↦
          let item := g.items.getD i default
          if item.next.isNone && la.has token then rs.add g item else rs) .none
      else .none
    let (next, a) := a.goto s token
    if next != 0 then
      if rs.moves.isEmpty then ([.shift next false], a)
      else (decide g st token rs next, a)
    else if rs.moves.isEmpty then
      (if g.grammar.extras.contains token then [.shiftExtra] else [], a)
    else (rs.moves, a)

/-- What a state does with a token; nothing, if the symbol is no token. -/
def movesOn (a : Automaton) (s token : Nat) : List Move × Automaton :=
  let key := s * a.symbolCount + token
  if a.tokenCount ≤ token then ([], a)
  else match a.moves.get? key with
  | some ms => (ms, a)
  | none =>
    let (ms, a) := a.resolve s token
    (ms, { a with moves := a.moves.insert key ms })

/-- The tokens that a state does anything with, extras apart. -/
def expected (a : Automaton) (s : Nat) : TokenSet :=
  let st := a.state s
  st.shifts ||| st.ends

end Automaton

end CodeAtlas.Parsing
