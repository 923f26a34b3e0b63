import CodeAtlas.Schema
import CodeAtlas.Service.Basic

/-!
# Reading answers

Answers are read back from JSON. A member of two words has two names, one written in camel case and
one with an underscore; the first is preferred. What an answer holds may be left out, and most of what
its parts hold may not.
-/

namespace CodeAtlas

open Schema

namespace Canvas

namespace Point

/-- Reads a place. -/
def ofJson : Checker Point :=
  object (.notObject "Position") fun ms ↦
    Point.mk <$> member ["x"] (some 0) integer ms <*> member ["y"] (some 0) integer ms

end Point

namespace NodeKind

/-- All kinds with their names. -/
def named : List (String × NodeKind) := [functionNode, variableNode, classNode].map fun k ↦ (k.name, k)

end NodeKind

namespace NodeStyle

/-- Reads the style of a node. -/
def ofJson : Checker NodeStyle :=
  object (.notObject "NodeStyle") fun ms ↦
    NodeStyle.mk <$> member ["backgroundColor", "background_color"] none text ms <*>
      member ["borderColor", "border_color"] none text ms <*>
      member ["borderWidth", "border_width"] none integer ms

end NodeStyle

namespace NodeData

/-- Reads what a node tells of its entity. -/
def ofJson : Checker NodeData :=
  object (.notObject "NodeData") fun ms ↦
    NodeData.mk <$> member ["name"] none text ms <*>
      member ["parameters"] (some none) (optional (list text)) ms <*>
      member ["scope"] (some none) (optional integer) ms <*>
      member ["lineNumber", "line_number"] (some none) (optional integer) ms

end NodeData

namespace Node

/-- Reads a node. -/
def ofJson : Checker Node :=
  object (.notObject "VisualNode") fun ms ↦
    Node.mk <$> member ["id"] none text ms <*>
      member ["type"] none (oneOf NodeKind.named) ms <*>
      member ["label"] none text ms <*>
      member ["data"] none NodeData.ofJson ms <*>
      member ["position"] (some .origin) Point.ofJson ms <*>
      member ["style"] none NodeStyle.ofJson ms

end Node

namespace EdgeStyle

/-- Reads the style of an edge. -/
def ofJson : Checker EdgeStyle :=
  object (.notObject "EdgeStyle") fun ms ↦
    EdgeStyle.mk <$> member ["stroke"] none text ms <*>
      member ["strokeWidth", "stroke_width"] none integer ms

end EdgeStyle

namespace Edge

/-- Reads an edge. -/
def ofJson : Checker Edge :=
  object (.notObject "VisualEdge") fun ms ↦
    Edge.mk <$> member ["id"] none text ms <*> member ["source"] none text ms <*>
      member ["target"] none text ms <*> member ["label"] none text ms <*>
      member ["type"] none text ms <*> member ["animated"] (some true) flag ms <*>
      member ["style"] none EdgeStyle.ofJson ms

end Edge

end Canvas

namespace Diagnostic

/-- Reads a diagnostic. -/
def ofJson : Checker Diagnostic :=
  object (.notObject "CodeError") fun ms ↦
    (fun _ message line column lineText suggestion ↦
      ({ message, line, column, lineText, suggestion } : Diagnostic)) <$>
      member ["kind"] (some ()) (oneOf [("syntax", ())]) ms <*>
      member ["message"] none text ms <*>
      member ["line"] (some 0) integer ms <*>
      member ["column"] (some 0) integer ms <*>
      member ["offendingLineText", "offending_line_text"] (some []) text ms <*>
      member ["suggestion"] none text ms

end Diagnostic

namespace Response

/-- Reads the members of an answer. -/
def ofMembers (ms : Members Json) : Checked Response :=
  Response.mk <$> member ["nodes"] (some []) (list Canvas.Node.ofJson) ms <*>
    member ["edges"] (some []) (list Canvas.Edge.ofJson) ms <*>
    member ["diagramText", "diagram_text"] (some []) text ms <*>
    member ["errors"] (some []) (list Diagnostic.ofJson) ms <*>
    member ["parseTimeMillis", "parse_time_millis"] (some noTime) number ms <*>
    member ["cached"] (some false) flag ms <*>
    member ["cycles"] (some []) (list (list text)) ms

/-- Reads an answer. -/
def ofJson : Checker Response := object (.notObject "VisualizeResponse") ofMembers

end Response

end CodeAtlas
