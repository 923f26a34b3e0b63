import CodeAtlas.Parsing.Run
import CodeAtlas.Syntax.Concrete

/-!
# From trees to concrete trees

Trees of rules that do not show are replaced by their children, and each node gets the kind and the
field that its place in the production gives it. `Language.concrete` is the concrete tree of a text.
-/

namespace CodeAtlas.Parsing

open CodeAtlas.Grammar CodeAtlas.Syntax

namespace Language

/-- How a symbol shows: its kind and whether it is named; `none` for one that is hidden. -/
def shownAs (l : Language) (symbol : Nat) : Option Alias → Option (String × Bool)
  | some a => some (a.kind, a.named)
  | none =>
    if symbol < l.tokenCount then
      let t := l.productions.tokens.getD symbol default
      match t.shown with
      | some a => some (a.kind, a.named)
      | none => match t.showing with
        | .named => some (t.kind, true)
        | .plain => some (t.kind, false)
        | .hidden => none
    else if symbol < l.errorSymbol then
      let v := l.productions.vars.getD (symbol - l.tokenCount) default
      match v.shown with
      | some a => some (a.kind, a.named)
      | none => match v.showing with
        | .named => some (v.kind, true)
        | .plain => some (v.kind, false)
        | .hidden => none
    else if symbol == l.errorSymbol then some ("ERROR", true)
    else none

mutual

/-- The concrete nodes of a tree: one if it shows, and those of its children otherwise. -/
def nodesOf (l : Language) (src : Source) (alias? : Option Alias) (field? : Option String) :
    Tree → List ConcreteNode
  | .node i cs =>
    let steps :=
      if l.errorSymbol ≤ i.symbol then []
      else (l.items.productions.getD i.production default).2.steps
    match l.shownAs i.symbol alias? with
    | none => nodesOfAll l src field? steps cs
    | some (kind, named) =>
      let children := nodesOfAll l src none steps cs
      let shows := i.missing || kind == "ERROR" || children.any ConcreteNode.hasError
      [.node { kind := Text.ofString kind
               start := src.octets.getD i.start 0
               stop := src.octets.getD i.stop 0
               named
               missing := i.missing
               flagged := !shows && 0 < i.ownCost
               field := field?.map Text.ofString } children]

/-- The concrete nodes of several trees, the steps of the production being given; `outer` is the
field that a hidden parent has. -/
def nodesOfAll (l : Language) (src : Source) (outer : Option String) (steps : List Step) :
    List Tree → List ConcreteNode
  | [] => []
  | t :: ts =>
    if t.info.extra then nodesOf l src none none t ++ nodesOfAll l src outer steps ts
    else
      let step := steps.head?
      let alias? := step.bind (·.alias?)
      let field? := match step.bind (·.field?) with
        | some f => some f
        | none => outer
      nodesOf l src alias? field? t ++ nodesOfAll l src outer steps.tail ts

end

/-- The concrete tree of a text. -/
def concrete (l : Language) (t : Text) : ConcreteNode :=
  let src := Source.ofText t
  match l.nodesOf src none none (Engine.parse l src) with
  | n :: _ => n
  | [] => .node ⟨ConcreteNode.errorKind, 0, 0, true, false, false, none⟩ []

end Language

end CodeAtlas.Parsing
