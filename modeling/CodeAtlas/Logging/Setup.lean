import CodeAtlas.Logging.Level
import CodeAtlas.Text.Basic

/-!
# Setting up logs

A process sets up its logs once. The first call does it, at the level that it names; every later call
does nothing, even if the first one failed because there is no level of that name. Main statement:
`setUp_setUp`, a second call changes nothing.
-/

namespace CodeAtlas

/-- How the lines of a log are written. -/
structure LineFormat where
  line : String
  time : String
  deriving DecidableEq

/-- The logs of a process. -/
structure Logs where
  /-- Whether they have been set up, or could not be. -/
  configured : Bool
  /-- The number of the level of the process. -/
  root : Nat
  formats : List LineFormat
  /-- The numbers of the levels of the logs that are quieted. -/
  quieted : List Nat
  deriving DecidableEq

namespace Logs

/-- The logs that would say too much. -/
def chatty : List String := ["httpx", "httpcore", "multipart", "uvicorn.access"]

/-- The format of every line. -/
def format : LineFormat :=
  ⟨"%(asctime)s - %(levelname)s - [%(name)s] - %(message)s", "%Y-%m-%dT%H:%M:%S"⟩

/-- Nothing has been set up. -/
def fresh : Logs := ⟨false, Level.warning.number, [], chatty.map fun _ ↦ 0⟩

/-- A level that there is not, in capital letters. -/
structure UnknownLevel where
  name : Text
  deriving DecidableEq

namespace UnknownLevel

/-- An unknown level in words. -/
def message (u : UnknownLevel) : Text :=
  Text.ofString "module 'logging' has no attribute " ++ Text.ofString "'" ++ u.name ++
    Text.ofString "'"

end UnknownLevel

/-- The level that a text names, or its name in capital letters. -/
def level (t : Text) : Except UnknownLevel Level :=
  match Level.ofText? t with
  | some l => .ok l
  | none => .error ⟨t.upper⟩

/-- Sets up the logs of a process, at the level named or at the usual one. -/
def setUp (l : Logs) (named : Option Text) : Option UnknownLevel × Logs :=
  if l.configured then (none, l)
  else
    match level (named.getD (Text.ofString Level.info.name)) with
    | .error u => (some u, { l with configured := true })
    | .ok level =>
      (none, ⟨true, level.number, [format], chatty.map fun _ ↦ Level.warning.number⟩)

/-- A second call changes nothing. -/
theorem setUp_setUp (l : Logs) (a b : Option Text) :
    (l.setUp a).2.setUp b = (none, (l.setUp a).2) := by
  have h : (l.setUp a).2.configured = true := by
    unfold setUp
    split
    next h => exact h
    next => split <;> rfl
  rw [setUp, if_pos h]

end Logs

end CodeAtlas
