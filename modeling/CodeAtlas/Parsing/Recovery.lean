import CodeAtlas.Parsing.Engine

/-!
# Recovering from errors

A reading that cannot take the next token first tries whether one token, put in at this place, would
help. Then it goes back to a state from which the token could have been taken, wrapping what has
been read since in an error; or it skips the token, wrapping that one. Both are tried side by side
as long as neither is much worse than the other readings.
-/

namespace CodeAtlas.Parsing.Engine

open CodeAtlas.Grammar

/-- How deep states are remembered when an error is met. -/
def maxLandmarkDepth : Nat := 16

/-- A reduction that is possible in some state. -/
structure Reduction where
  rule : Nat
  count : Nat
  weight : Int
  production : Nat

/-- The reductions that are possible on some of the given tokens, and whether one of them can be
taken. -/
def possibleMoves (state : Nat) (tokens : List Nat) : ParseM (List Reduction × Bool) := do
  let mut reductions : Array Reduction := #[]
  let mut canShift := false
  for t in tokens do
    for m in ← movesOn state t do
      match m with
      | .shift _ repeating => if !repeating then canShift := true
      | .recover => canShift := true
      | .reduce rule count weight production =>
        if 0 < count && !reductions.any (fun r ↦ r.rule == rule && r.count == count) then
          reductions := reductions.push ⟨rule, count, weight, production⟩
      | _ => pure ()
  return (reductions.toList, canShift)

/-- Does every reduction that is possible from a reading on: on one token, or on any. Whether that
token can then be taken somewhere is returned. -/
def reduceAll (first : Nat) (token : Option Nat) : ParseM Bool := do
  let initial ← ask (·.count)
  let mut canShift := false
  let mut v := first
  let mut round := 0
  -- Each round either ends one reading or reduces it further, and only few rounds reduce.
  for _ in List.range 4000 do
    let count ← ask (·.count)
    if count ≤ v then break
    let mut merged := false
    for j in List.range v do
      if initial ≤ j then
        if ← merge j v then
          merged := true
          break
    if !merged then
      let state ← ask (·.state v)
      let e ← get
      let tokens := match token with
        | some t => [t]
        | none =>
          let st := e.automaton.state state
          if state == Automaton.errorState then [1]
          else (TokenSet.members (st.shifts ||| st.ends) e.language.tokenCount).filter (· != 0)
      let (reductions, shifts) ← possibleMoves state tokens
      let mut last : Option Nat := none
      for r in reductions do
        last ← reduce v r.rule r.count r.weight r.production
      let mut again := false
      if shifts then canShift := true
      else match last with
        | some w =>
          if round < maxReadings then
            update (·.renumber w v)
            again := true
          else if token.isSome then update (·.remove v)
        | none => if token.isSome then update (·.remove v)
      if !again then
        v := if v == first then count else v + 1
    round := round + 1
  return canShift

/-- Goes back to a state that lies `depth` trees deep, wrapping the trees above in an error. -/
def recoverTo (v depth goal : Nat) : ParseM Bool := do
  let found ← modifyGet (fun e ↦
    let (x, s) := e.stack.popCount v depth
    (x, { e with stack := s }))
  let mut previous : Option Nat := none
  for x in found do
    if previous == some x.head then continue
    if (← ask (·.state x.head)) != goal then
      update (·.halt x.head)
      continue
    let error ← modifyGet (fun e ↦
      let (t, s) := e.stack.popError e.language x.head
      (t, { e with stack := s }))
    let trees := ((error.map (·.children)).getD []) ++ x.trees
    let (parts, extras) := splitExtras trees
    if !parts.isEmpty then
      let e ← get
      let pos := e.stack.position x.head
      let t := e.language.branch e.source e.language.errorSymbol 0 pos parts
      push x.head (some (t.withExtra true)) goal
    for t in extras do
      push x.head (some t) goal
    previous := some x.head
  return previous.isSome

/-- Removes the readings from a number on that do not go on. -/
def removeIdle : Nat → Nat → ParseM Unit
  | 0, _ => pure ()
  | fuel + 1, v => do
    if (← ask (·.count)) ≤ v then return
    if ← ask (fun s ↦ !s.isActive v) then
      update (·.remove v)
      removeIdle fuel v
    else removeIdle fuel (v + 1)

/-- Tries the remembered states, the highest first, for one from which the token can be taken. -/
def recoverToLandmark (v : Nat) (lookahead : Tree) (previousCount : Nat) (marks : List Landmark) :
    ParseM Bool := do
  let pos ← ask (·.position v)
  let nodes ← ask (·.nodesSinceError v)
  let cost ← ask (·.cost v)
  for m in marks do
    if m.state == Automaton.errorState || m.position == pos then continue
    let depth := if 0 < nodes then m.depth + 1 else m.depth
    let e ← get
    let redundant := (List.range previousCount).any (fun j ↦
      e.stack.state j == m.state && e.stack.position j == pos)
    if redundant then continue
    let newCost := cost + m.depth * prices.skippedTree
      + e.source.octetsBetween m.position pos * prices.skippedOctet
      + e.source.rowsBetween m.position pos * prices.skippedLine
    if e.betterExists v false newCost then break
    if !(← movesOn m.state lookahead.info.symbol).isEmpty then
      if ← recoverTo v depth m.state then return true
  return false

/-- Goes on after an error: back to a state in which the token can be taken, and past the token. -/
def recover (v : Nat) (lookahead : Tree) : ParseM Unit := do
  let e ← get
  let l := e.language
  let previousCount ← ask (·.count)
  let nodes ← ask (·.nodesSinceError v)
  let cost ← ask (·.cost v)
  let marks ← ask (fun s ↦ (s.head v).landmarks)
  let mut recovered := false
  match marks with
  | some ms =>
    if lookahead.info.symbol != l.errorSymbol then
      recovered ← recoverToLandmark v lookahead previousCount ms.toList
  | none => pure ()
  removeIdle (← ask (·.count)) previousCount
  if lookahead.info.symbol == 0 then
    let pos ← ask (·.position v)
    push v (some (l.branch e.source l.errorSymbol 0 pos [])) Automaton.startState
    accept v lookahead
    return
  if recovered && maxReadings < (← ask (·.count)) then
    update (·.halt v)
    return
  let i := lookahead.info
  let newCost := cost + prices.skippedTree
    + e.source.octetsBetween i.origin i.stop * prices.skippedOctet
    + e.source.rowsBetween i.origin i.stop * prices.skippedLine
  if (← get).betterExists v false newCost then
    update (·.halt v)
    return
  let lookahead := match (← movesOn Automaton.startState i.symbol).getLast? with
    | some .shiftExtra => lookahead.withExtra true
    | _ => lookahead
  let mut skipped := l.branch e.source l.skippedSymbol 0 i.origin [lookahead]
  if 0 < nodes then
    let found ← modifyGet (fun e ↦
      let (x, s) := e.stack.popCount v 1
      (x, { e with stack := s }))
    match found[0]? with
    | some x =>
      for _ in List.range (← ask (·.count)) do
        if x.head + 1 < (← ask (·.count)) then update (·.remove (x.head + 1))
      update (·.renumber x.head v)
      skipped := l.branch e.source l.skippedSymbol 0 i.origin (x.trees ++ [skipped])
    | none => pure ()
  push v (some skipped) Automaton.errorState

/-- Tries to put in a token after which the lookahead can be taken. -/
def insertMissing (v pos : Nat) (lookahead : Tree) : ParseM Bool := do
  let e ← get
  let l := e.language
  let state ← ask (·.state v)
  if state == Automaton.errorState then return false
  let st := e.automaton.state state
  for t in TokenSet.members st.shifts l.tokenCount do
    if t == 0 then continue
    let next ← nextState state t
    if next == Automaton.errorState || next == state then continue
    match ← movesOn next lookahead.info.symbol with
    | .reduce .. :: _ =>
      let w ← modifyGet (fun e ↦
        let (w, s) := e.stack.copy v
        (w, { e with stack := s }))
      push w (some (l.missingLeaf t pos)) next
      -- The end of the text is no token that could be taken: all reductions are tried.
      let token := if lookahead.info.symbol == 0 then none else some lookahead.info.symbol
      if ← reduceAll w token then return true
    | _ => pure ()
  return false

/-- Handles an error: does what reductions are possible, tries to put in a token, marks the error
on all readings that came of it and joins them, and begins to recover. -/
def handleError (v : Nat) (lookahead : Tree) : ParseM Unit := do
  let previousCount ← ask (·.count)
  let _ ← reduceAll v none
  let count ← ask (·.count)
  let pos ← ask (·.position v)
  let mut inserted := false
  for w in v :: (List.range count).filter (fun w ↦ previousCount ≤ w) do
    if !inserted then
      inserted ← insertMissing w pos lookahead
    push w none Automaton.errorState
  for _ in List.range (count - previousCount) do
    let _ ← merge v previousCount
  update (·.recordLandmarks v maxLandmarkDepth)
  recover v lookahead

end CodeAtlas.Parsing.Engine
