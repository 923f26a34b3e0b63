import CodeAtlas.Syntax.View
import CodeAtlas.Text.LetterCase

/-!
# Diagnostics

A tree with errors is explained to a learner: `Diagnosis.ofTree` looks for the outermost nodes that
were put in or could not be read, in the order of the source, and explains no more than ten. Each
diagnostic says what was met, where, on which line, and what to check. The check is chosen by the
words of the message. Main statement: `ofTree_ne_nil`, an explanation is never empty.
-/

namespace CodeAtlas

open Syntax

/-- An error in a source, as it is shown to a learner. -/
structure Diagnostic where
  message : Text
  line : Int
  column : Int
  lineText : Text
  suggestion : Text
  deriving DecidableEq, Inhabited

namespace Diagnosis

/-- What to check, by words of a message; the first words that the message holds decide. -/
def hints : List (String × String) :=
  [("unexpected token", "Check for missing or extra brackets, parentheses, or semicolons"),
    ("unexpected identifier", "You might have a typo or missing operator between expressions"),
    ("unterminated", "Check for unclosed strings, comments, or brackets")]

/-- What to check when no words decide. -/
def fallbackHint : String := "Review the syntax at the indicated line"

/-- What to check for a message, given in lower case. -/
def advice (lowered : Text) : Text :=
  match hints.find? (fun h ↦ Text.contains (Text.ofString h.1) lowered) with
  | some h => Text.ofString h.2
  | none => Text.ofString fallbackHint

/-- What to check for a message. Capital letters make no difference. -/
def suggest (message : Text) : Text := advice message.lower

/-- What is wrong. -/
inductive Cause where
  /-- A token of this kind is missing. -/
  | missing (kind : Text)
  | openComment
  | openString
  | openTemplate
  | identifier (token : Text)
  | token (token : Text)
  /-- There is an error that no node shows. -/
  | unexplained
  /-- There is no tree. -/
  | noTree (reason : Text)
  deriving DecidableEq

/-- How many code points of a token are quoted. -/
def quotedLength : Nat := 20

namespace Cause

/-- A cause in words. -/
def message : Cause → Text
  | missing kind => Text.ofString "Unexpected token, expected '" ++ kind ++ Text.ofString "'"
  | openComment => Text.ofString "Unterminated comment"
  | openString => Text.ofString "Unterminated string constant"
  | openTemplate => Text.ofString "Unterminated template"
  | identifier t =>
    Text.ofString "Unexpected identifier '" ++ t.take quotedLength ++ Text.ofString "'"
  | token t => Text.ofString "Unexpected token '" ++ t.take quotedLength ++ Text.ofString "'"
  | unexplained => Text.ofString "Unexpected token"
  | noTree reason => Text.ofString "Parser failure: " ++ reason

end Cause

mutual

/-- The first token of a node. -/
def firstToken : ConcreteNode → ConcreteNode
  | .node h cs => firstTokenOf (.node h cs) cs

/-- The first token of the first of several nodes, and `outer` if there is none. -/
def firstTokenOf (outer : ConcreteNode) : List ConcreteNode → ConcreteNode
  | [] => outer
  | c :: _ => firstToken c

end

/-- The kinds of tokens that are identifiers. -/
def identifierKinds : List String :=
  ["identifier", "property_identifier", "type_identifier", "shorthand_property_identifier"]

/-- Whether a text is one quote that stands an odd number of times in another. -/
def isOpen (quote token whole : Text) : Bool :=
  match quote with
  | [q] => token = quote && whole.count q % 2 == 1
  | _ => false

/-- What is wrong with a part that could not be read: it is told by its first token. -/
def describe (octets : List UInt8) (n : ConcreteNode) : Cause :=
  let first := firstToken n
  let token := first.text octets
  let whole := n.text octets
  if token.startsWith (Text.ofString "/*") && !Text.contains (Text.ofString "*/") whole then
    .openComment
  else if isOpen (Text.ofString "'") token whole || isOpen (Text.ofString "\"") token whole then
    .openString
  else if isOpen (Text.ofString "\x60") token whole then .openTemplate
  else if identifierKinds.any first.isA then .identifier token
  else .token token

/-- Drops one carriage return at the end of a line. -/
def withoutReturn (line : Text) : Text :=
  if line.getLast? = some (CodePoint.ofNat 0x0D) then line.dropLast else line

/-- The lines of a source. They end at line feeds only. -/
def linesOf (source : Text) : List Text :=
  (source.splitOn (CodePoint.ofNat 0x0A)).map withoutReturn

/-- A diagnostic at the start of a node. -/
def atNode (source : Text) (n : ConcreteNode) (cause : Cause) : Diagnostic :=
  let start := (n.span (Utf8.encode source)).start
  let lineText :=
    if 0 < start.line then (linesOf source).getD (start.line.toNat - 1) [] else []
  ⟨cause.message, start.line, start.column, lineText, suggest cause.message⟩

/-- The diagnostic of a fault: a node that was put in or could not be read. -/
def ofFault (source : Text) (n : ConcreteNode) : Diagnostic :=
  if n.head.missing then atNode source n (.missing n.head.kind)
  else atNode source n (describe (Utf8.encode source) n)

/-- How many diagnostics a source gets at most. -/
def limit : Nat := 10

/-- The outermost faults of the nodes on a stack, no more than there is room for. -/
def faults (room : Nat) : List ConcreteNode → List ConcreteNode
  | [] => []
  | n :: stack =>
    if room = 0 then []
    else if n.isFault then n :: faults (room - 1) stack
    else if n.hasError then faults room (n.children ++ stack)
    else faults room stack
termination_by stack => ConcreteNode.weightAll stack
decreasing_by
  · simp only [ConcreteNode.weightAll]
    have := n.weight_children_lt
    omega
  · simp only [ConcreteNode.weightAll, ConcreteNode.weightAll_append]
    have := n.weight_children_lt
    omega
  · simp only [ConcreteNode.weightAll]
    have := n.weight_children_lt
    omega

/-- The diagnostics of a tree with errors. -/
def ofTree (source : Text) (root : ConcreteNode) : List Diagnostic :=
  match faults limit [root] with
  | [] => [atNode source root .unexplained]
  | ns => ns.map (ofFault source)

/-- The diagnostic of a source without a tree. -/
def ofReason (reason : Text) : Diagnostic :=
  let message := (Cause.noTree reason).message
  ⟨message, 0, 0, [], suggest message⟩

/-- An explanation is never empty. -/
theorem ofTree_ne_nil (source : Text) (root : ConcreteNode) : ofTree source root ≠ [] := by
  unfold ofTree
  split
  · simp
  next h => simpa using h

end Diagnosis

end CodeAtlas
