import CodeAtlas.Parsing.Stack

/-!
# Moves of the parser

The parser keeps several readings of the source on one stack. Here are the moves of a single
reading: taking a token, putting a rule in the place of its parts, and accepting the whole text. A
reading whose parts were read in several ways keeps the way that is to be preferred.
-/

namespace CodeAtlas.Parsing

open CodeAtlas.Grammar

/-- The whole state of a parse. -/
structure Engine where
  language : Language
  source : Source
  automaton : Automaton
  stack : Stack
  /-- The best tree of the whole text so far. -/
  finished : Option Tree
  /-- How often the whole text has been accepted. -/
  accepted : Nat
  deriving Inhabited

/-- A step of a parse. -/
abbrev ParseM := StateM Engine

namespace Engine

/-- How many readings are kept. -/
def maxReadings : Nat := 6

/-- How many readings more there may be for a moment. -/
def maxOverflow : Nat := 4

/-- A question about the stack. -/
def ask {α : Type} (f : Stack → α) : ParseM α := return f (← get).stack

/-- A change of the stack. -/
def update (f : Stack → Stack) : ParseM Unit := modify (fun e ↦ { e with stack := f e.stack })

/-- What a state does with a token. -/
def movesOn (state token : Nat) : ParseM (List Move) :=
  modifyGet (fun e ↦
    let (ms, a) := e.automaton.movesOn state token
    (ms, { e with automaton := a }))

/-- The state after a symbol. -/
def goto (state symbol : Nat) : ParseM Nat :=
  modifyGet (fun e ↦
    let (t, a) := e.automaton.goto state symbol
    (t, { e with automaton := a }))

/-- The state that the last move on a token leads to, 0 if it leads nowhere. -/
def nextState (state token : Nat) : ParseM Nat := do
  match (← movesOn state token).getLast? with
  | some (.shift t _) => return t
  | some .shiftExtra => return state
  | _ => return 0

/-- Puts a tree on a reading. -/
def push (v : Nat) (t : Option Tree) (state : Nat) : ParseM Unit :=
  modify (fun e ↦ { e with stack := e.stack.push e.language v t state })

/-- Merges one reading into another, if possible. -/
def merge (v w : Nat) : ParseM Bool :=
  modifyGet (fun e ↦
    let (b, s) := e.stack.merge e.language v w
    (b, { e with stack := s }))

/-- Separates the trees at the end that may stand anywhere. -/
def splitExtras (ts : List Tree) : List Tree × List Tree :=
  let trailing := (ts.reverse.takeWhile (·.info.extra)).reverse
  (ts.take (ts.length - trailing.length), trailing)

/-- Slices of one reading, grouped by the reading they made. -/
def groups : List Stack.Slice → List (Nat × List (List Tree))
  | [] => []
  | s :: ss =>
    match groups ss with
    | (v, ts) :: gs => if v == s.head then (v, s.trees :: ts) :: gs else (s.head, [s.trees]) :: (v, ts) :: gs
    | [] => [(s.head, [s.trees])]

/-- The tree of a rule over the best of several lists of parts, with the extras behind it. -/
def bestBranch (l : Language) (src : Source) (symbol production pos : Nat) :
    List (List Tree) → Tree × List Tree
  | [] => (l.branch src symbol production pos [], [])
  | ts :: rest =>
    let (parts, extras) := splitExtras ts
    rest.foldl (fun (best : Tree × List Tree) us ↦
      let (parts, extras) := splitExtras us
      let other := l.branch src symbol production pos parts
      if best.1.isWorseThan other then (other, extras) else best)
      (l.branch src symbol production pos parts, extras)

/-- Puts a rule in the place of its parts, along every path. The first new reading is returned. -/
def reduce (v : Nat) (rule count : Nat) (weight : Int) (production : Nat) : ParseM (Option Nat) := do
  let initial ← ask (·.count)
  let pos ← ask (·.position v)
  let halted ← ask (·.haltedCount)
  let found ← modifyGet (fun e ↦
    let (x, s) := e.stack.popCount v count
    (x, { e with stack := s }))
  let mut removed := 0
  for (w, lists) in groups found.toList do
    let w := w - removed
    if w > maxReadings + maxOverflow + halted then
      update (·.remove w)
      removed := removed + 1
    else
      let e ← get
      let (tree, extras) := bestBranch e.language e.source rule production pos lists
      let state ← ask (·.state w)
      let next ← goto state rule
      let tree := match tree with
        | .node i cs => Tree.node { i with weight := i.weight + weight } cs
      push w (some tree) next
      for x in extras do
        push w (some x) next
      for j in List.range w do
        if j != v then
          if ← merge j w then
            removed := removed + 1
            break
  let final ← ask (·.count)
  return if initial < final then some initial else none

/-- Takes a token. -/
def shift (v state : Nat) (lookahead : Tree) (extra : Bool) : ParseM Unit :=
  push v (some (lookahead.withExtra extra)) state

/-- Replaces the last tree that may not stand anywhere by its children. -/
def spliceLast (ts : List Tree) : Option (Tree × List Tree) :=
  let behind := (ts.reverse.takeWhile (·.info.extra)).reverse
  let front := ts.take (ts.length - behind.length)
  match front.getLast? with
  | some t => some (t, front.dropLast ++ t.children ++ behind)
  | none => none

/-- Accepts the whole text: what is on the reading becomes a tree, which is kept if it is the best
so far. -/
def accept (v : Nat) (lookahead : Tree) : ParseM Unit := do
  push v (some (lookahead.withExtra true)) Automaton.startState
  let found ← modifyGet (fun e ↦
    let (x, s) := e.stack.popAll v
    (x, { e with stack := s }))
  for x in found do
    match spliceLast x.trees with
    | none => pure ()
    | some (t, parts) =>
      modify (fun e ↦
        let root := e.language.branch e.source t.info.symbol t.info.production 0 parts
        let root := match e.finished with
          | none => root
          | some old => if old.isWorseThan root then root else old
        { e with finished := some root, accepted := e.accepted + 1 })
  match found[0]? with
  | some x => update (·.remove x.head)
  | none => pure ()
  update (·.halt v)

/-- What one reading is compared with others by. -/
structure Standing where
  cost : Nat
  nodeCount : Nat
  weight : Int
  inError : Bool

/-- The standing of a reading. -/
def standing (s : Stack) (v : Nat) : Standing where
  cost := s.cost v + (if s.isPaused v then prices.skippedTree else 0)
  nodeCount := s.nodesSinceError v
  weight := (s.top v).weight
  inError := s.isPaused v || s.state v == Automaton.errorState

/-- How two readings compare: one of them is so much worse that it is given up, or one of them is
preferred, or neither. -/
inductive Verdict where
  | takeLeft
  | preferLeft
  | neither
  | preferRight
  | takeRight
  deriving BEq, DecidableEq

/-- A difference of costs, times the trees gained since the error, beyond which the worse reading is
given up. -/
def maxDifference : Nat := 18 * prices.skippedTree

/-- Compares two readings. -/
def compareStandings (a b : Standing) : Verdict :=
  if !a.inError && b.inError then (if a.cost < b.cost then .takeLeft else .preferLeft)
  else if a.inError && !b.inError then (if b.cost < a.cost then .takeRight else .preferRight)
  else if a.cost < b.cost then
    if maxDifference < (b.cost - a.cost) * (1 + a.nodeCount) then .takeLeft else .preferLeft
  else if b.cost < a.cost then
    if maxDifference < (a.cost - b.cost) * (1 + b.nodeCount) then .takeRight else .preferRight
  else if b.weight < a.weight then .preferLeft
  else if a.weight < b.weight then .preferRight
  else .neither

/-- Whether some other reading is so good that going on with a reading at the given cost is no
use. -/
def betterExists (e : Engine) (v : Nat) (inError : Bool) (cost : Nat) : Bool :=
  let s := e.stack
  (match e.finished with
    | some t => t.cost ≤ cost
    | none => false)
  || (
    let mine : Standing := ⟨cost, s.nodesSinceError v, (s.top v).weight, inError⟩
    (List.range s.count).any (fun i ↦
      if i == v || !s.isActive i || s.position i < s.position v then false
      else match compareStandings mine (standing s i) with
        | .takeRight => true
        | .preferRight => s.canMerge i v
        | _ => false))

end Engine

end CodeAtlas.Parsing
