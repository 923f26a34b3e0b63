import CodeAtlas.Calls.Cycles
import CodeAtlas.Canvas.Basic
import CodeAtlas.Text.Quoted

/-!
# Flowcharts

A flowchart is a list of lines: a header, a note if not all entities have room, the functions and
variables that have room, the calls between the functions shown, and a note if there is a cycle.
`Diagram.lines` chooses the lines and `Diagram.Line.text` writes each of them. Functions take the room
first. A room below zero leaves out as many entities at the end of each list.
-/

namespace CodeAtlas.Diagram

/-- A line of a flowchart. -/
inductive Line where
  | header
  /-- Not all entities have room. -/
  | truncated (room : Int)
  | functionBox (id label : Text)
  | variableBox (id label : Text)
  | call (caller callee : Text)
  | circular
  deriving DecidableEq

/-- Letters and digits of ASCII and the underscore can stand in an identifier. -/
def isSafe (c : CodePoint) : Bool :=
  c.isDigit || (0x41 ≤ c.val && c.val ≤ 0x5A) || (0x61 ≤ c.val && c.val ≤ 0x7A) || c.val == 0x5F

/-- An identifier with an underscore for each code point that cannot stand in one. -/
def safeId (id : Text) : Text := id.map fun c ↦ if isSafe c then c else CodePoint.ofNat 0x5F

/-- A label in which quotation marks are spelled out. -/
def escaped (label : Text) : Text :=
  label.flatMap fun c ↦ if c = Text.quotationMark then Text.ofString "#quot;" else [c]

/-- The identifier of the note that not all entities have room. -/
def truncatedId : Text := Text.ofString "note"

/-- The identifier of the note that there is a cycle. -/
def circularId : Text := Text.ofString "note2"

namespace Line

/-- What stands in front of every line but the first. -/
def margin : Text := Text.ofString "    "

/-- A line as it is written. -/
def text : Line → Text
  | header => Text.ofString "graph TD"
  | truncated room =>
    margin ++ truncatedId ++ Text.ofString "[\"⚠️ Large file: Showing first " ++ Text.ofInt room ++
      Text.ofString " nodes\"]"
  | functionBox id label =>
    margin ++ safeId id ++ Text.ofString "[\"" ++ escaped label ++ Text.ofString "\"]"
  | variableBox id label =>
    margin ++ safeId id ++ Text.ofString "[(\"" ++ escaped label ++ Text.ofString "\")]"
  | call caller callee =>
    margin ++ safeId caller ++ Text.ofString " --> " ++ safeId callee
  | circular =>
    margin ++ circularId ++ Text.ofString "[\"⚠️ Circular dependencies detected\"]"

end Line

/-- The elements of a list that have room; a room below zero leaves out as many at the end. -/
def within {α : Type} (room : Int) (xs : List α) : List α :=
  if 0 ≤ room then xs.take room.toNat else xs.take (xs.length - room.natAbs)

/-- The functions that are shown. -/
def shownFunctions (i : Inventory) (room : Int) : List Entity := within room i.functions

/-- The variables that are shown, in the room that the functions leave. -/
def shownVariables (i : Inventory) (room : Int) : List Entity :=
  within (room - (shownFunctions i room).length) i.vars

/-- The lines of the calls of one function that is shown. -/
def callsFrom (shown : List Entity) (caller : Entity) (callees : List Text) : List Line :=
  callees.filterMap fun c ↦
    (Inventory.firstNamed? shown c).map fun callee ↦ .call caller.id callee.id

/-- The lines of the calls between the functions that are shown. -/
def callLines (i : Inventory) (shown : List Entity) : List Line :=
  i.calls.flatMap fun c ↦
    match Inventory.firstNamed? shown c.1 with
    | some caller => callsFrom shown caller c.2
    | none => []

/-- The lines of a flowchart. The cycles are those of the calls, unless they are given. -/
def lines (i : Inventory) (room : Int) (cycles? : Option (List (List Text))) : List Line :=
  let functions := shownFunctions i room
  let vars := shownVariables i room
  let total : Int := i.functions.length + i.vars.length
  let cycles := cycles?.getD i.calls.cycles
  [.header] ++ (if room < total then [.truncated room] else []) ++
    functions.map (fun e ↦ .functionBox e.id (Canvas.functionLabel e)) ++
    vars.map (fun e ↦ .variableBox e.id (Canvas.variableLabel e)) ++
    callLines i functions ++
    (if cycles.isEmpty then [] else [.circular])

/-- The text of a flowchart. -/
def text (i : Inventory) (room : Int) (cycles? : Option (List (List Text))) : Text :=
  (Text.ofString "\n").intercalate ((lines i room cycles?).map Line.text)

/-- How many entities a flowchart shows unless it is given. -/
def defaultRoom : Int := 50

/-- A flowchart begins with its header. -/
theorem lines_head? (i : Inventory) (room : Int) (cycles? : Option (List (List Text))) :
    (lines i room cycles?).head? = some .header := by
  simp [lines]

end CodeAtlas.Diagram
