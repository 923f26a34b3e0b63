import CodeAtlas.Service.Basic

/-!
# Sessions

A session is a sequence of steps that share one cache. `Session.run` gives the answer to every step;
a step that fails is answered by its problem and the session goes on. Main statement:
`length_run`, every step has one answer.
-/

namespace CodeAtlas.Session

/-- A step of a session. -/
inductive Step where
  | visualize (stages : Stages) (request : Request)
  /-- The language tag is passed on and does not matter, like that of a request. -/
  | analyze (stages : Stages) (source : Text) (language : Text := Request.defaultLanguage)
  | stats
  | clear

/-- The answer to a step. -/
inductive Answer where
  | visualized (result : Except Problem Outcome)
  | analyzed (result : Except Problem Analysis)
  /-- The cache at the step, whose numbers are told. -/
  | stats (cache : Store)
  /-- How many entries were dropped. -/
  | cleared (dropped : Nat)

/-- The numbers of the cache, if an answer tells them. -/
def Answer.stats? : Answer → Option Cache.Stats
  | stats c => some c.stats
  | visualized _ | analyzed _ | cleared _ => none

/-- Takes one step. -/
def step (c : Store) : Step → Answer × Store
  | .visualize s r =>
    let (result, c') := CodeAtlas.visualize s r (some c)
    (.visualized result, c'.getD c)
  | .analyze s source _ =>
    let (result, c') := CodeAtlas.analyze s source (some c)
    (.analyzed result, c'.getD c)
  | .stats => (.stats c, c)
  | .clear =>
    let (dropped, c) := c.clear
    (.cleared dropped, c)

/-- Takes several steps, and leaves the cache behind. -/
def runFrom (c : Store) : List Step → List Answer × Store
  | [] => ([], c)
  | s :: ss =>
    let (answer, c) := step c s
    let (answers, c) := runFrom c ss
    (answer :: answers, c)

/-- The answers to the steps of a session that starts with the given cache. -/
def run (c : Store) (steps : List Step) : List Answer := (runFrom c steps).1

/-- Every step has one answer. -/
theorem length_run (c : Store) (steps : List Step) : (run c steps).length = steps.length := by
  unfold run
  induction steps generalizing c with
  | nil => rfl
  | cons s ss ih => simp [runFrom, ih]

end CodeAtlas.Session
