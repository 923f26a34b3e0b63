import CodeAtlas.Members
import CodeAtlas.Syntax.Location

/-!
# Inventories

An inventory lists what a source declares, functions, variables, classes and imports, and which
function calls which names. Calls are kept by name: a callee need not be declared.
-/

namespace CodeAtlas

open Syntax

/-- The kinds of things that a source declares. -/
inductive EntityKind where
  | functionKind
  | variableKind
  | classKind
  | importKind
  deriving DecidableEq, Inhabited

namespace EntityKind

/-- All kinds. -/
def all : List EntityKind := [functionKind, variableKind, classKind, importKind]

/-- The name of a kind. -/
def name : EntityKind → String
  | functionKind => "function"
  | variableKind => "variable"
  | classKind => "class"
  | importKind => "import"

/-- The kind with a name. -/
def ofName? (s : String) : Option EntityKind := all.find? (·.name = s)

/-- Every kind is listed. -/
theorem mem_all (k : EntityKind) : k ∈ all := by cases k <;> decide

end EntityKind

/-- Something that a source declares. -/
structure Entity where
  id : Text
  kind : EntityKind
  name : Text
  span : Option Span
  /-- The parameters of a function. -/
  parameters : List Text
  /-- The keyword that a variable is declared with. -/
  keyword : Option Text
  /-- The number of the function or class around it, or zero. -/
  scope : Int
  deriving DecidableEq, Inhabited

namespace Entity

/-- The line that an entity starts on. -/
def line (e : Entity) : Option Int := e.span.map (·.start.line)

end Entity

/-- The names that each caller calls, in the order of the calls; callers are in the order of their
first calls. -/
abbrev CallGraph := Members (List Text)

namespace CallGraph

/-- The names that a caller calls. -/
def callees (g : CallGraph) (caller : Text) : List Text := (g.get? caller).getD []

/-- The callers. -/
def callers (g : CallGraph) : List Text := g.map (·.1)

/-- Adds a call. -/
def record (g : CallGraph) (caller callee : Text) : CallGraph :=
  g.put caller (g.callees caller ++ [callee])

/-- What is put is what the caller calls; others call what they called. -/
theorem callees_put (g : CallGraph) (caller : Text) (callees : List Text) (name : Text) :
    CallGraph.callees (g.put caller callees) name =
      if caller = name then callees else g.callees name := by
  rw [CallGraph.callees, Members.get?_put]
  split
  · rfl
  · rfl

/-- A recorded call is the last one of its caller; those of others stay. -/
theorem callees_record (g : CallGraph) (caller callee name : Text) :
    (g.record caller callee).callees name =
      if caller = name then g.callees name ++ [callee] else g.callees name := by
  rw [record, callees_put]
  split
  next h => rw [h]
  next h => rfl

end CallGraph

/-- What a source declares and calls. -/
structure Inventory where
  functions : List Entity
  vars : List Entity
  classes : List Entity
  imports : List Entity
  calls : CallGraph
  deriving DecidableEq, Inhabited

namespace Inventory

/-- Nothing is declared. -/
def empty : Inventory := ⟨[], [], [], [], []⟩

/-- All entities, list by list. -/
def entities (i : Inventory) : List Entity := i.functions ++ i.vars ++ i.classes ++ i.imports

/-- The first of several entities with a name. -/
def firstNamed? (es : List Entity) (name : Text) : Option Entity := es.find? (·.name = name)

/-- The first function with a name. -/
def findFunction? (i : Inventory) (name : Text) : Option Entity := firstNamed? i.functions name

/-- There is a first entity with a name if there is one at all. -/
theorem isSome_firstNamed?_iff {es : List Entity} {name : Text} :
    (firstNamed? es name).isSome = true ↔ ∃ e ∈ es, e.name = name := by
  simp [firstNamed?]

theorem mem_of_firstNamed? {es : List Entity} {name : Text} {e : Entity}
    (h : firstNamed? es name = some e) : e ∈ es :=
  List.mem_of_find?_eq_some h

theorem name_of_firstNamed? {es : List Entity} {name : Text} {e : Entity}
    (h : firstNamed? es name = some e) : e.name = name := by
  simpa using List.find?_some h

/-- The first of several entities of each name, under the name. -/
def firstOfEach (es : List Entity) : Members Entity := es.foldl (fun ms e ↦ ms.putNew e.name e) []

/-- Under a name stands the first entity with the name. -/
theorem get?_firstOfEach (es : List Entity) (name : Text) :
    Members.get? name (firstOfEach es) = firstNamed? es name := by
  have hfold (ms : Members Entity) :
      Members.get? name (es.foldl (fun ms e ↦ ms.putNew e.name e) ms) =
        (Members.get? name ms).or (firstNamed? es name) := by
    induction es generalizing ms with
    | nil => exact Option.or_none.symm
    | cons e es ih =>
      rw [List.foldl_cons, ih, Members.get?_putNew, Option.or_assoc]
      congr 1
      by_cases h : e.name = name
      · simp [firstNamed?, h]
      · simp [firstNamed?, h]
  rw [firstOfEach, hfold, Members.get?, Option.none_or]

end Inventory

end CodeAtlas
