import CodeAtlas.Parsing.Recovery

/-!
# Parsing a source

All readings advance token by token; after each round those that are clearly worse than others are
given up, equal ones are joined, and a waiting one goes on to recover if nothing better is left. The
parse ends when no reading is left, or none that could become better than the best finished tree.
-/

namespace CodeAtlas.Parsing.Engine

open CodeAtlas.Grammar

/-- Reads the next token of a reading. -/
def lookahead (v : Nat) : ParseM Tree := do
  let e ← get
  let s := e.stack
  let state := s.state v
  let pos := s.position v
  let expected := e.automaton.expected state
    ||| (e.language.productions.extras.foldl (fun t x ↦ t ||| TokenSet.single x) 0)
  let reading := e.language.lexicon.read e.source (state == Automaton.errorState) expected
    (s.hasAdvanced v) pos
  return match reading with
    | .token f => e.language.leaf f.token pos f.start f.stop f.keyword
    | .unknown start stop => e.language.leaf e.language.errorSymbol pos start stop false

/-- What came of trying the moves of a state. -/
inductive Outcome where
  /-- The token was dealt with. -/
  | done
  /-- There were reductions, the last of which made this reading, if it was not merged. -/
  | reduced (w : Option Nat)
  | stuck

/-- Tries the moves of a state: the reductions, each of which makes a reading, and the move that
deals with the token. -/
def tryMoves (v state : Nat) (t : Tree) : List Move → Option (Option Nat) → ParseM Outcome
  | [], none => return .stuck
  | [], some w => return .reduced w
  | m :: ms, reduced => do
    match m with
    | .shift next repeating =>
      if repeating then tryMoves v state t ms reduced
      else
        shift v next t false
        return .done
    | .shiftExtra =>
      shift v state t true
      return .done
    | .reduce rule count weight production =>
      let w ← reduce v rule count weight production
      let reduced := match w, reduced with
        | some w, _ => some (some w)
        | none, some old => some old
        | none, none => some none
      tryMoves v state t ms reduced
    | .accept =>
      accept v t
      return .done
    | .recover =>
      recover v t
      return .done

/-- Takes one token on a reading, after all reductions in front of it. -/
def advanceWith (v : Nat) : Nat → Tree → ParseM Unit
  | 0, _ => update (·.halt v)
  | fuel + 1, t => do
    let state ← ask (·.state v)
    match ← tryMoves v state t (← movesOn state t.info.symbol) none with
    | .done => pure ()
    | .reduced (some w) =>
      update (·.renumber w v)
      advanceWith v fuel t
    | .reduced none => update (·.halt v)
    | .stuck =>
      let l := (← get).language
      let word := l.lexicon.word
      if t.info.keyword && t.info.symbol != word && !(← movesOn state word).isEmpty then
        advanceWith v fuel (t.withSymbol word (l.isVisible word))
      else update (·.pause v t)

/-- Takes one token on a reading. -/
def advance (v : Nat) : ParseM Unit := do
  let t ← lookahead v
  let e ← get
  advanceWith v (200 * (e.stack.nodes.size + 100)) t

/-- Compares reading `i` with the readings in front of it from `j` on, giving up or joining what is
worse. The number of the last reading looked at is returned, and whether `i` itself is gone. -/
def condenseOne (mine : Standing) : Nat → Nat → Nat → ParseM (Nat × Bool)
  | 0, i, _ => return (i, false)
  | fuel + 1, i, j => do
    if i ≤ j then return (i, false)
    let s := (← get).stack
    match compareStandings (standing s j) mine with
    | .takeLeft =>
      update (·.remove i)
      return (i, true)
    | .preferLeft | .neither =>
      if ← merge j i then return (i, true) else condenseOne mine fuel i (j + 1)
    | .preferRight =>
      if ← merge j i then return (i, true)
      else
        update (·.swap i j)
        condenseOne mine fuel i (j + 1)
    | .takeRight =>
      update (·.remove j)
      condenseOne mine fuel (i - 1) j

/-- Orders the readings and gives up what is clearly worse; the least cost of a reading without an
error in front of it is returned. -/
def condenseAll : Nat → Nat → Option Nat → ParseM (Option Nat)
  | 0, _, best => return best
  | fuel + 1, i, best => do
    let s := (← get).stack
    if s.count ≤ i then return best
    if s.isHalted i then
      update (·.remove i)
      condenseAll fuel i best
    else
      let mine := standing s i
      let best := if mine.inError then best else some (min mine.cost (best.getD mine.cost))
      let (i, gone) ← condenseOne mine (s.count * s.count + 1) i 0
      condenseAll fuel (if gone then i else i + 1) best

/-- Lets the first waiting reading recover if no other goes on before it, and removes the waiting
ones behind: `left` counts the readings still to be looked at. -/
def resumeOne : Nat → Nat → Bool → Option Nat → ParseM (Option Nat)
  | 0, _, _, best => return best
  | left + 1, i, running, best => do
    match ← ask (fun s ↦ (s.head i).status) with
    | .paused t =>
      if !running && (← get).accepted < maxReadings then
        let cost ← ask (·.cost i)
        update (·.resume i)
        handleError i t
        resumeOne left (i + 1) true (some cost)
      else
        update (·.remove i)
        resumeOne left i running best
    | _ => resumeOne left (i + 1) true best

/-- Puts the readings in order after a round. -/
def condense : ParseM (Option Nat) := do
  let count ← ask (·.count)
  let best ← condenseAll (count * count + count + 1) 0 none
  for _ in List.range (← ask (·.count)) do
    if maxReadings < (← ask (·.count)) then update (·.remove maxReadings)
  resumeOne (← ask (·.count)) 0 false best

/-- Advances one reading until it has come further than the last one did. -/
def advanceReading (v : Nat) : Nat → Nat → ParseM Nat
  | 0, last => do
    update (·.halt v)
    return last
  | fuel + 1, last => do
    if ← ask (fun s ↦ s.isActive v) then
      advance v
      let pos ← ask (·.position v)
      if last < pos || (0 < v && pos == last) then return pos
      advanceReading v fuel last
    else return last

/-- Advances the readings from number `v` on. -/
def advanceAll : Nat → Nat → Nat → ParseM Nat
  | 0, _, last => return last
  | fuel + 1, v, last => do
    if (← ask (·.count)) ≤ v then return last
    let last ← advanceReading v 1000 last
    advanceAll fuel (v + 1) last

/-- Runs rounds until the parse is over. -/
def rounds : Nat → Nat → ParseM Unit
  | 0, _ => pure ()
  | fuel + 1, last => do
    let last ← advanceAll 64 0 last
    let count ← ask (·.count)
    let best ← condense
    let done := match (← get).finished, best with
      | some t, some c => decide (t.cost < c)
      | some _, none => true
      | none, _ => false
    if done then update (fun s ↦ { s with heads := #[] })
    else if count == 0 then pure ()
    else rounds fuel last

/-- A parse of a source, about to begin. -/
def start (l : Language) (src : Source) : Engine where
  language := l
  source := src
  automaton := .ofItems l.items
  stack := .start Automaton.startState
  finished := none
  accepted := 0

/-- The tree of a source. -/
def parse (l : Language) (src : Source) : Tree :=
  let (_, e) := (rounds (4 * src.size + 100) 0).run (start l src)
  e.finished.getD (l.branch src l.errorSymbol 0 0 [])

end CodeAtlas.Parsing.Engine
