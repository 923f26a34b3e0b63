import CodeAtlas.Proofs.Inventory.Occurrence
import CodeAtlas.Proofs.Inventory.Traversal
import Mathlib.Data.List.Induction
import Mathlib.Data.List.Nodup

/-!
# The calls of an inventory

A visit adds the function or the call that the place of its node tells of (`Draft.Collects`), and hands
the place on to the children: `Draft.Stands` is what the context of a visit has to do with the nodes
around it. By induction over the tree, the functions and the calls of an inventory are those of the
nodes in document order. Main statement: `calls_ofTree`.
-/

namespace CodeAtlas

open Syntax

/-! ### Recording several calls -/

namespace Members

variable {α : Type}

/-- A key that is put stays where it is, or comes last if it is new. -/
theorem keys_put (k : Text) (v : α) (ms : Members α) :
    (put k v ms).map (·.1) =
      if k ∈ ms.map (·.1) then ms.map (·.1) else ms.map (·.1) ++ [k] := by
  induction ms with
  | nil => simp [put]
  | cons m ms ih =>
    by_cases hm : m.1 = k
    · simp [put, hm]
    · rw [put, if_neg hm, List.map_cons, ih]
      simp only [List.map_cons, List.mem_cons, Ne.symm hm, false_or]
      split
      · rfl
      · rfl

/-- A key has a value exactly if it is there. -/
theorem get?_eq_none_iff {k : Text} {ms : Members α} :
    get? k ms = none ↔ k ∉ ms.map (·.1) := by
  induction ms with
  | nil => simp [get?]
  | cons m ms ih =>
    by_cases hm : m.1 = k
    · simp [get?, hm]
    · simp only [get?, if_neg hm, ih, List.map_cons, List.mem_cons, not_or]
      exact ⟨fun h ↦ ⟨Ne.symm hm, h⟩, fun h ↦ h.2⟩

/-- If no key comes twice, every entry is the one that its key finds. -/
theorem get?_eq_some_iff {k : Text} {v : α} {ms : Members α} (h : (ms.map (·.1)).Nodup) :
    get? k ms = some v ↔ (k, v) ∈ ms := by
  induction ms with
  | nil => simp [get?]
  | cons m ms ih =>
    obtain ⟨k', v'⟩ := m
    rw [List.map_cons, List.nodup_cons] at h
    rw [get?, List.mem_cons, Prod.mk.injEq]
    by_cases hk : k' = k
    · subst hk
      have hnot : (k', v) ∉ ms := fun hm ↦ h.1 (List.mem_map.2 ⟨(k', v), hm, rfl⟩)
      simp [hnot, eq_comm]
    · simp [hk, Ne.symm hk, ih h.2]

end Members

namespace CallGraph

/-- Records several calls, each given by its caller and its callee. -/
def recordAll (g : CallGraph) (calls : List (Text × Text)) : CallGraph :=
  calls.foldl (fun g c ↦ g.record c.1 c.2) g

theorem recordAll_append (g : CallGraph) (as bs : List (Text × Text)) :
    g.recordAll (as ++ bs) = (g.recordAll as).recordAll bs :=
  List.foldl_append ..

theorem recordAll_singleton (g : CallGraph) (c : Text × Text) :
    g.recordAll [c] = g.record c.1 c.2 := rfl

/-- The names that a caller calls among several calls. -/
def calleesIn (calls : List (Text × Text)) (caller : Text) : List Text :=
  (calls.filter (·.1 = caller)).map (·.2)

/-- The callers stand in the order of their first calls. -/
theorem callers_recordAll (calls : List (Text × Text)) :
    (recordAll [] calls).callers = (calls.map (·.1)).eraseDups := by
  induction calls using List.reverseRecOn with
  | nil => rfl
  | append_singleton calls c ih =>
    rw [recordAll_append, recordAll_singleton, callers, record, Members.keys_put, ← callers, ih,
      List.map_append, List.eraseDups_append]
    by_cases hc : c.1 ∈ calls.map (·.1)
    · simp [hc, List.removeAll]
    · simp [hc, List.removeAll, List.eraseDups_cons]

/-- No caller is listed twice. -/
theorem nodup_callers_recordAll (calls : List (Text × Text)) :
    (recordAll [] calls).callers.Nodup := by
  induction calls using List.reverseRecOn with
  | nil => exact List.nodup_nil
  | append_singleton calls c ih =>
    rw [recordAll_append, recordAll_singleton, callers, record, Members.keys_put, ← callers]
    split
    · exact ih
    · next hnew => simpa using List.Nodup.concat hnew ih

/-- Each caller has the callees of its calls, in their order. -/
theorem callees_recordAll (calls : List (Text × Text)) (caller : Text) :
    (recordAll [] calls).callees caller = calleesIn calls caller := by
  induction calls using List.reverseRecOn with
  | nil => rfl
  | append_singleton calls c ih =>
    rw [recordAll_append, recordAll_singleton, callees_record, ih]
    by_cases hc : c.1 = caller
    · simp [calleesIn, hc]
    · simp [calleesIn, hc]

/-- Whoever makes no call is absent. -/
theorem get?_recordAll (calls : List (Text × Text)) (caller : Text) :
    Members.get? caller (recordAll [] calls) =
      if caller ∈ calls.map (·.1) then some (calleesIn calls caller) else none := by
  have hcallees := callees_recordAll calls caller
  have hnone : Members.get? caller (recordAll [] calls) = none ↔ caller ∉ calls.map (·.1) := by
    rw [Members.get?_eq_none_iff, ← callers, callers_recordAll, List.mem_eraseDups]
  split
  · next hmem =>
    cases hget : Members.get? caller (recordAll [] calls) with
    | none => exact absurd hmem (hnone.1 hget)
    | some v =>
      rw [callees, hget] at hcallees
      exact congrArg some hcallees
  · next hmem => exact hnone.2 hmem

end CallGraph

namespace Inventory

open Occurrence

/-! ### What one visit adds -/

/-- What a function is called and where it stands. -/
def signature (f : Entity) : Text × Option Span := (f.name, f.span)

namespace Draft

/-- Functions and calls are the same in two drafts. -/
structure SameCode (d d' : Draft) : Prop where
  functions : d'.inventory.functions = d.inventory.functions
  calls : d'.inventory.calls = d.inventory.calls

theorem SameCode.refl (d : Draft) : SameCode d d := ⟨rfl, rfl⟩

theorem SameCode.trans {a b c : Draft} (h : SameCode a b) (h' : SameCode b c) : SameCode a c :=
  ⟨h'.functions.trans h.functions, h'.calls.trans h.calls⟩

/-- Opening a scope changes neither functions nor calls. -/
theorem SameCode.openScope {d d' : Draft} (h : SameCode d d') : SameCode d d'.openScope :=
  ⟨h.functions, h.calls⟩

/-- An entity that is no function is none of the functions and calls. -/
theorem sameCode_add (d : Draft) {e : Entity} (h : e.kind ≠ .functionKind) :
    SameCode d (d.add e) := by
  cases hk : e.kind with
  | functionKind => exact absurd hk h
  | variableKind => constructor <;> simp [add, hk]
  | classKind => constructor <;> simp [add, hk]
  | importKind => constructor <;> simp [add, hk]

theorem sameCode_addDeclarators (d : Draft) (scope : Nat) (keyword : Option Text)
    (cs : List AbstractNode) : SameCode d (d.addDeclarators scope keyword cs) := by
  fun_induction addDeclarators d scope keyword cs with
  | case1 d => exact .refl d
  | case2 d c cs hk name hn ih => exact (sameCode_add d (by simp [entity])).trans ih
  | case3 d c cs hk hn ih => exact ih
  | case4 d c cs hk ih => exact ih

theorem sameCode_addLoopVariable (d : Draft) (h : NodeHead) (scope : Nat) :
    SameCode d (d.addLoopVariable h scope) := by
  unfold addLoopVariable
  split
  · split
    · exact sameCode_add d (by simp [entity])
    · exact .refl d
  · exact .refl d

theorem sameCode_addImport (d : Draft) (h : NodeHead) (scope : Nat) :
    SameCode d (d.addImport h scope) := by
  unfold addImport
  split
  · split
    · exact sameCode_add d (by simp [entity])
    · exact .refl d
  · exact .refl d

/-- The context of a visit tells the nearest function around a node and the name offered to it. -/
structure Stands (c : Context) (around : List NodeHead) : Prop where
  enclosing : c.enclosing = enclosing? around
  offered : c.offered = offered? around

/-- From one draft to another, the functions and calls of several nodes are added. -/
structure Collects (d : Draft) (os : List Occurrence) (d' : Draft) : Prop where
  functions : d'.inventory.functions.map signature =
    d.inventory.functions.map signature ++ functionsOf os
  calls : d'.inventory.calls = d.inventory.calls.recordAll (callsOf os)

theorem Collects.nil (d : Draft) : Collects d [] d :=
  ⟨(List.append_nil _).symm, rfl⟩

theorem Collects.append {a b c : Draft} {os ps : List Occurrence} (h : Collects a os b)
    (h' : Collects b ps c) : Collects a (os ++ ps) c := by
  refine ⟨?_, ?_⟩
  · rw [h'.functions, h.functions, functionsOf_append, List.append_assoc]
  · rw [h'.calls, h.calls, callsOf_append, CallGraph.recordAll_append]

/-- The name that a declaration gets is the one that its place gives. -/
theorem declaredName_eq {h : NodeHead} (hk : h.kind ≠ .functionLiteral) (around : List NodeHead) :
    declaredName h = functionName ⟨h, around⟩ := by
  have hname : functionName ⟨h, around⟩ = declaredName h := if_neg hk
  exact hname.symm

/-- The name that a literal takes in its context is the one that its place gives. -/
theorem literalName_eq {c : Context} {h : NodeHead} {around : List NodeHead} (hc : Stands c around)
    (hk : h.kind = .functionLiteral) : literalName c = functionName ⟨h, around⟩ := by
  rw [literalName, functionName, if_pos hk, hc.offered]
  cases offered? around with
  | none => rfl
  | some name =>
    cases name with
    | nil => rfl
    | cons x xs => rfl

variable {c : Context} {h : NodeHead} {around : List NodeHead}

/-- A visit of a function is one under the name that its place gives. -/
theorem visit_of_isFunction (d : Draft) (cs : List AbstractNode) (hc : Stands c around)
    (hf : h.kind.isFunction = true) :
    d.visit c h cs = d.visitFunction c h (functionName ⟨h, around⟩) := by
  cases hk : h.kind with
  | functionDeclaration =>
    rw [← declaredName_eq (by simp [hk]) around]
    simp only [visit, hk]
  | functionLiteral =>
    rw [← literalName_eq hc hk]
    simp only [visit, hk]
  | _ => simp [hk, NodeKind.isFunction] at hf

/-- A call changes the calls only, and its children inherit what it inherits. -/
theorem visit_of_call (d : Draft) (c : Context) (cs : List AbstractNode) (hk : h.kind = .call) :
    d.visit c h cs =
      (match c.enclosing, h.roles.callee.bind Part.identifier? with
        | some caller, some callee => d.addCall caller callee
        | _, _ => d, { c with offered := none }) := by
  simp only [visit, hk]
  cases c.enclosing with
  | none => rfl
  | some caller =>
    cases h.roles.callee.bind Part.identifier? with
    | none => rfl
    | some callee => rfl

/-- The children of a node that is neither function nor declarator inherit the function around it and
no name. -/
theorem context_visit (d : Draft) (c : Context) (cs : List AbstractNode)
    (hf : h.kind.isFunction = false) (hd : h.kind ≠ .variableDeclarator) :
    ∃ scope, (d.visit c h cs).2 = ⟨c.enclosing, scope, none⟩ := by
  cases hk : h.kind with
  | functionDeclaration | functionLiteral => simp [hk, NodeKind.isFunction] at hf
  | variableDeclarator => exact absurd hk hd
  | call =>
    rw [visit_of_call d c cs hk]
    exact ⟨c.scope, rfl⟩
  | variableDeclaration | loopDeclaration | importDeclaration | classDeclaration | identifier
  | string | other =>
    simp only [visit, hk]
    exact ⟨_, rfl⟩

/-- The context that children inherit tells their place: a function encloses them, and only a
declarator offers them a name. -/
theorem stands_visit (d : Draft) (cs : List AbstractNode) (hc : Stands c around) :
    Stands (d.visit c h cs).2 (h :: around) := by
  by_cases hf : h.kind.isFunction = true
  · have hd : h.kind ≠ .variableDeclarator := by
      intro hk
      simp [hk, NodeKind.isFunction] at hf
    rw [visit_of_isFunction d cs hc hf]
    refine ⟨?_, ?_⟩
    · rw [enclosing?, if_pos hf]
      rfl
    · rw [offered?, if_neg hd]
      rfl
  · have henclosing : enclosing? (h :: around) = c.enclosing := by
      rw [enclosing?, if_neg hf, hc.enclosing]
    by_cases hd : h.kind = .variableDeclarator
    · simp only [visit, hd]
      exact ⟨henclosing.symm, by simp [offered?, hd, declared?]⟩
    · obtain ⟨scope, hvisit⟩ := context_visit d c cs (by simpa using hf) hd
      rw [hvisit]
      exact ⟨henclosing.symm, by simp [offered?, hd]⟩

/-- A visit of a node that is neither function nor call adds neither. -/
theorem sameCode_visit (d : Draft) (c : Context) (cs : List AbstractNode)
    (hf : h.kind.isFunction = false) (hcall : h.kind ≠ .call) :
    SameCode d (d.visit c h cs).1 := by
  cases hk : h.kind with
  | functionDeclaration | functionLiteral => simp [hk, NodeKind.isFunction] at hf
  | call => exact absurd hk hcall
  | variableDeclaration =>
    simp only [visit, hk]
    exact sameCode_addDeclarators d c.scope h.keyword cs
  | loopDeclaration =>
    simp only [visit, hk]
    exact sameCode_addLoopVariable d h c.scope
  | classDeclaration =>
    simp only [visit, hk]
    apply SameCode.openScope
    exact sameCode_add d (by simp [entity])
  | importDeclaration =>
    simp only [visit, hk]
    exact sameCode_addImport d h c.scope
  | variableDeclarator | identifier | string | other =>
    simp only [visit, hk]
    exact .refl d

/-- A function is added under its name and with its place in the source. -/
theorem collects_visit_function (d : Draft) (cs : List AbstractNode) (hc : Stands c around)
    (hf : h.kind.isFunction = true) : Collects d [⟨h, around⟩] (d.visit c h cs).1 := by
  have hcall : h.kind ≠ .call := by
    intro hk
    simp [hk, NodeKind.isFunction] at hf
  rw [visit_of_isFunction d cs hc hf]
  refine ⟨?_, ?_⟩
  · simp [visitFunction, addFunction, openScope, add, entity, signature, functionsOf, hf]
  · simp [visitFunction, addFunction, openScope, add, entity, callsOf, call?, hcall,
      CallGraph.recordAll]

/-- A call of an identifier within a function is recorded. -/
theorem collects_visit_call (d : Draft) (cs : List AbstractNode) (hc : Stands c around)
    (hk : h.kind = .call) : Collects d [⟨h, around⟩] (d.visit c h cs).1 := by
  have hf : h.kind.isFunction = false := by simp [hk, NodeKind.isFunction]
  rw [visit_of_call d c cs hk, hc.enclosing]
  have hmade : callsOf [⟨h, around⟩] = (call? ⟨h, around⟩).toList := by
    cases hcall : call? ⟨h, around⟩ <;> simp [callsOf, hcall]
  have hfunctions : functionsOf [⟨h, around⟩] = [] := by simp [functionsOf, hf]
  cases henclosing : enclosing? around with
  | none => exact ⟨by simp [hfunctions], by simp [hmade, call?, henclosing, CallGraph.recordAll]⟩
  | some caller =>
    cases hcallee : h.roles.callee with
    | none =>
      exact ⟨by simp [hfunctions], by simp [hmade, call?, hcallee, CallGraph.recordAll]⟩
    | some callee =>
      by_cases hident : callee.kind = .identifier
      · simp only [Option.bind_some, Part.identifier?, if_pos hident]
        refine ⟨by simp [hfunctions, addCall], ?_⟩
        simp [hmade, call?, hk, henclosing, hcallee, hident, addCall, CallGraph.recordAll]
      · simp only [Option.bind_some, Part.identifier?, if_neg hident]
        refine ⟨by simp [hfunctions], ?_⟩
        simp [hmade, call?, henclosing, hcallee, hident, CallGraph.recordAll]

/-- A visit adds the function or the call that its node is. -/
theorem collects_visit (d : Draft) (cs : List AbstractNode) (hc : Stands c around) :
    Collects d [⟨h, around⟩] (d.visit c h cs).1 := by
  by_cases hf : h.kind.isFunction = true
  · exact collects_visit_function d cs hc hf
  · by_cases hk : h.kind = .call
    · exact collects_visit_call d cs hc hk
    · have hsame := sameCode_visit d c cs (by simpa using hf) hk
      refine ⟨by simp [hsame.functions, functionsOf, hf], ?_⟩
      simp [hsame.calls, callsOf, call?, hk, CallGraph.recordAll]

/-! ### What a visit of a tree adds -/

mutual

/-- A visit of a tree adds the functions and calls of its nodes in document order. -/
theorem collects_visitTree (d : Draft) {c : Context} {around : List NodeHead}
    (hc : Stands c around) : ∀ n, Collects d (n.occurrences around) (d.visitTree c n)
  | .node h cs => by
    rw [visitTree, AbstractNode.occurrences]
    exact (collects_visit d cs hc).append (collects_visitTrees _ (stands_visit d cs hc) cs)

/-- A visit of several trees adds the functions and calls of each, one tree after the other. -/
theorem collects_visitTrees (d : Draft) {c : Context} {around : List NodeHead}
    (hc : Stands c around) :
    ∀ ns, Collects d (AbstractNode.occurrencesOfAll around ns) (d.visitTrees c ns)
  | [] => .nil d
  | n :: ns => by
    rw [visitTrees, AbstractNode.occurrencesOfAll]
    exact (collects_visitTree d hc n).append (collects_visitTrees _ hc ns)

end

end Draft

/-- The functions and calls of an inventory are those of the nodes in document order. -/
theorem collects_ofTree (root : AbstractNode) :
    (ofTree root).functions.map signature = functionsOf (root.occurrences []) ∧
      (ofTree root).calls = CallGraph.recordAll [] (callsOf (root.occurrences [])) := by
  have hroot : Draft.Stands .root [] := ⟨rfl, rfl⟩
  rw [ofTree_eq_visitTree]
  exact ⟨(Draft.collects_visitTree .empty hroot root).functions,
    (Draft.collects_visitTree .empty hroot root).calls⟩

/-- Every caller is a function. -/
theorem exists_function_of_mem_callers {root : AbstractNode} {name : Text}
    (h : name ∈ (ofTree root).calls.callers) : ∃ f ∈ (ofTree root).functions, f.name = name := by
  obtain ⟨hfunctions, hcalls⟩ := collects_ofTree root
  rw [hcalls, CallGraph.callers_recordAll, List.mem_eraseDups] at h
  obtain ⟨call, hcall, rfl⟩ := List.mem_map.1 h
  obtain ⟨span, hspan⟩ := exists_mem_functionsOf hcall
  rw [← hfunctions] at hspan
  obtain ⟨f, hf, hsignature⟩ := List.mem_map.1 hspan
  exact ⟨f, hf, congrArg Prod.fst hsignature⟩

/-- The call graph is exact. The functions of an inventory are those of the tree in document order,
each under the name that its place gives. A name calls, in document order, the identifiers that are
called where the nearest function around has that name; it is absent if there are none. The callers
stand in the order of their first calls, and each of them is a function. -/
theorem calls_ofTree (root : AbstractNode) :
    let inventory := ofTree root
    let calls := callsOf (root.occurrences [])
    inventory.functions.map signature = functionsOf (root.occurrences []) ∧
      (∀ name, Members.get? name inventory.calls =
        if name ∈ calls.map (·.1) then some (CallGraph.calleesIn calls name) else none) ∧
      inventory.calls.callers = (calls.map (·.1)).eraseDups ∧
      ∀ name ∈ inventory.calls.callers, ∃ f ∈ inventory.functions, f.name = name := by
  intro inventory calls
  obtain ⟨hfunctions, hcalls⟩ := collects_ofTree root
  have hcallers : inventory.calls.callers = (calls.map (·.1)).eraseDups := by
    rw [hcalls]
    exact CallGraph.callers_recordAll calls
  refine ⟨hfunctions, ?_, hcallers, ?_⟩
  · intro name
    rw [hcalls]
    exact CallGraph.get?_recordAll calls name
  · intro name hname
    rw [hcallers, List.mem_eraseDups] at hname
    obtain ⟨call, hcall, rfl⟩ := List.mem_map.1 hname
    obtain ⟨span, hspan⟩ := exists_mem_functionsOf hcall
    rw [← hfunctions] at hspan
    obtain ⟨f, hf, hsignature⟩ := List.mem_map.1 hspan
    exact ⟨f, hf, congrArg Prod.fst hsignature⟩

end Inventory

end CodeAtlas
