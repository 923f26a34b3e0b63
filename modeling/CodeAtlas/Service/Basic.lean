import CodeAtlas.Analysis
import CodeAtlas.Canvas.Layout
import CodeAtlas.Diagram
import CodeAtlas.Number.Binary64

/-!
# The visualization service

`visualize` answers a request: it refuses a source that is empty or too large, analyses it, and shows
the inventory on a canvas and as a flowchart. Diagnostics are an answer; a stage that fails is not.
Main statement: `visualize_eq_rejected`, a refused source leaves the cache as it was.
-/

namespace CodeAtlas

/-- What is shown of an inventory. -/
structure Visualization where
  nodes : List Canvas.Node
  edges : List Canvas.Edge
  diagram : Text
  cycles : List (List Text)
  deriving DecidableEq

namespace Visualization

/-- What is shown of an inventory, in a flowchart with the given room. -/
def ofInventory (i : Inventory) (room : Int) : Except Canvas.Undrawable Visualization :=
  (Canvas.nodes i).map fun nodes ↦
    let cycles := i.calls.cycles
    ⟨Canvas.placeFrom Canvas.nodesPerRow 0 nodes, Canvas.edges i,
      Diagram.text i room (some cycles), cycles⟩

end Visualization

/-- The answer to a request. -/
structure Response where
  nodes : List Canvas.Node
  edges : List Canvas.Edge
  diagram : Text
  diagnostics : List Diagnostic
  /-- How long the answer took, in thousandths of a second. -/
  millis : Binary64
  cached : Bool
  cycles : List (List Text)
  deriving DecidableEq

namespace Response

/-- No time at all. -/
def noTime : Binary64 := .finite false 0 Binary64.leastExponent

/-- An answer with nothing in it. -/
def empty : Response := ⟨[], [], [], [], noTime, false, []⟩

end Response

/-- An answer with the digest of its source. -/
structure Outcome where
  response : Response
  digest : Text
  deriving DecidableEq

/-- What a request asks for. -/
structure Request where
  source : Text
  /-- A tag that is passed on and does not matter otherwise. -/
  language : Text
  /-- How many entities the flowchart shows. -/
  room : Int
  /-- How many octets the source may have. -/
  maxBytes : Int

namespace Request

/-- How many octets a source may have unless it is given. -/
def defaultMaxBytes : Int := 10485760

/-- The language tags that are known. -/
def languages : List String := ["javascript", "typescript", "python"]

/-- The language tag unless it is given. -/
def defaultLanguage : Text := Text.ofString "javascript"

/-- Why a source is refused, if it is. -/
def rejection? (r : Request) : Option Rejection :=
  if r.source.isEmpty then some .empty
  else
    let size := (Utf8.encode r.source).length
    if r.maxBytes < size then some (.oversized size r.maxBytes) else none

end Request

/-- Shows an analysis that has an inventory. -/
def show? (s : Stages) (room : Int) (i : Inventory) : Except Problem Visualization :=
  match s.visualization with
  | some cause => .error (.ofStage .visualization cause)
  | none =>
    match Visualization.ofInventory i room with
    | .error u => .error (.ofStage .visualization (.undrawable u))
    | .ok v => .ok v

/-- The answer that an analysis leads to. -/
def respond (s : Stages) (room : Int) (a : Analysis) : Except Problem Outcome :=
  match a.inventory with
  | none => .ok ⟨{ Response.empty with diagnostics := a.diagnostics }, a.digest⟩
  | some i =>
    (show? s room i).map fun v ↦
      ⟨⟨v.nodes, v.edges, v.diagram, [], Response.noTime, a.cached, v.cycles⟩, a.digest⟩

/-- Answers a request, with a cache if there is one. -/
def visualize (s : Stages) (r : Request) (cache? : Option Store) :
    Except Problem Outcome × Option Store :=
  match r.rejection? with
  | some rejection => (.error (.ofRejection rejection), cache?)
  | none =>
    let (analysis, cache?) := analyze s r.source cache?
    (analysis.bind (respond s r.room), cache?)

/-- A refused source leaves the cache as it was. -/
theorem visualize_eq_rejected {s : Stages} {r : Request} {cache? : Option Store} {x : Rejection}
    (h : r.rejection? = some x) :
    visualize s r cache? = (.error (.ofRejection x), cache?) := by
  simp [visualize, h]

end CodeAtlas
