import CodeAtlas.Json.Writer
import CodeAtlas.Service.Basic

/-!
# Written answers

The JSON form of what the service answers, and the three formats that the command line prints: the
JSON document, the flowchart, and a summary with the number of entities of each kind and the cycles.
-/

namespace CodeAtlas

open Json

/-- A diagnostic as JSON. -/
def Diagnostic.toJson (d : Diagnostic) : Json :=
  record [("kind", str "syntax"), ("message", .text d.message), ("line", .int d.line),
    ("column", .int d.column), ("offendingLineText", .text d.lineText),
    ("suggestion", .text d.suggestion)]

namespace Canvas

/-- A node as JSON. -/
def Node.toJson (n : Node) : Json :=
  record [("id", .text n.id), ("type", str n.kind.name), ("label", .text n.label),
    ("data", record [("name", .text n.data.name),
      ("parameters", ofOption (n.data.parameters.map texts)),
      ("scope", ofOption (n.data.scope.map .int)),
      ("lineNumber", ofOption (n.data.line.map .int))]),
    ("position", record [("x", .int n.position.x), ("y", .int n.position.y)]),
    ("style", record [("backgroundColor", .text n.style.background),
      ("borderColor", .text n.style.border), ("borderWidth", .int n.style.borderWidth)])]

/-- An edge as JSON. -/
def Edge.toJson (e : Edge) : Json :=
  record [("id", .text e.id), ("source", .text e.source), ("target", .text e.target),
    ("label", .text e.label), ("type", .text e.kind), ("animated", .bool e.animated),
    ("style", record [("stroke", .text e.style.stroke), ("strokeWidth", .int e.style.width)])]

end Canvas

namespace Response

/-- An answer as JSON. -/
def toJson (r : Response) : Json :=
  record [("nodes", .list (r.nodes.map (·.toJson))), ("edges", .list (r.edges.map (·.toJson))),
    ("diagramText", .text r.diagram), ("errors", .list (r.diagnostics.map (·.toJson))),
    ("parseTimeMillis", .real r.millis), ("cached", .bool r.cached),
    ("cycles", .list (r.cycles.map texts))]

/-- The line of a summary for a cycle, which leads back to its first name; a cycle has one. -/
def cycleLine? : List Text → Option Text
  | [] => none
  | n :: ns =>
    some (Text.ofString "cycle: " ++ (Text.ofString " -> ").intercalate ((n :: ns) ++ [n]))

/-- The summary of an answer; `none` if it holds a cycle without names. -/
def summary? (r : Response) : Option Text := do
  let count (kind : Canvas.NodeKind) : Text :=
    Text.ofNat (r.nodes.filter (·.kind = kind)).length
  let cycles ← r.cycles.mapM cycleLine?
  return (Text.ofString "\n").intercalate
    ([Text.ofString "functions: " ++ count .functionNode,
      Text.ofString "variables: " ++ count .variableNode,
      Text.ofString "classes:   " ++ count .classNode,
      Text.ofString "calls:     " ++ Text.ofNat r.edges.length] ++ cycles)

end Response

/-- How an answer is printed. -/
inductive Format where
  | json
  | flowchart
  | summary
  deriving DecidableEq

namespace Format

/-- The format with a name; any other name means the summary. -/
def ofName (name : Text) : Format :=
  if name = Text.ofString "json" then json
  else if name = Text.ofString "mermaid" then flowchart
  else summary

/-- Prints an answer; only a summary can fail. -/
def print? (r : Response) : Format → Option Text
  | json => some r.toJson.indented
  | flowchart => some r.diagram
  | summary => r.summary?

end Format

end CodeAtlas
