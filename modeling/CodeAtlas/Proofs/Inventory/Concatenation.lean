import CodeAtlas.Proofs.Inventory.Declarations
import CodeAtlas.Proofs.Inventory.Identifier
import CodeAtlas.Proofs.Inventory.Scopes

/-!
# Inventories of concatenated sources

What stands behind other code is found as it is found alone, except that its declarations are numbered
on from those before and that its functions and classes are, too (`Findings.ofTree_raise`); and what
stands before is found as if nothing came behind (`Findings.ofTrees_append`). Calls of one caller are put
together (`CallGraph.recordAll_append_eq_extend`). Main statement: `ofTree_sequence_append`.
-/

namespace CodeAtlas

open Syntax

/-! ### Call graphs -/

namespace Members

variable {α : Type} {k k' : Text}

/-- Of two values of one key the later one stays. -/
theorem put_put (k : Text) (v v' : α) (ms : Members α) : put k v' (put k v ms) = put k v' ms := by
  induction ms with
  | nil => simp [put]
  | cons m ms ih =>
    obtain ⟨x, y⟩ := m
    by_cases hx : x = k
    · simp [put, hx]
    · simp [put, hx, ih]

/-- A key that is there keeps its place whatever other key comes before. -/
theorem put_comm (hne : k ≠ k') {ms : Members α} (hk : k ∈ ms.map (·.1)) (v v' : α) :
    put k v (put k' v' ms) = put k' v' (put k v ms) := by
  induction ms with
  | nil => cases hk
  | cons m ms ih =>
    obtain ⟨x, y⟩ := m
    by_cases hx : x = k
    · simp [put, hx, hne]
    · have hmem : k ∈ ms.map (·.1) := List.mem_of_ne_of_mem (Ne.symm hx) hk
      by_cases hx' : x = k'
      · simp [put, hx', hne.symm]
      · simp [put, hx, hx', ih hmem]

end Members

namespace CallGraph

/-- Puts the calls of a graph behind those of another one, caller by caller; new callers come at the
end. -/
def extend (g g' : CallGraph) : CallGraph :=
  g'.foldl (fun g e ↦ g.put e.1 (g.callees e.1 ++ e.2)) g

variable {g : CallGraph} {caller callee : Text}

theorem mem_callers_put (g : CallGraph) (caller : Text) (callees : List Text) :
    caller ∈ (g.put caller callees).map (·.1) := by
  rw [Members.keys_put]
  split
  · assumption
  · exact List.mem_append_right _ (List.mem_singleton_self caller)

/-- A call of a caller that is there may be recorded before or after those of other callers are put
behind. -/
theorem extend_record_of_notMem {g' : CallGraph} (hmem : caller ∈ g.map (·.1))
    (hnot : caller ∉ g'.map (·.1)) :
    (g.record caller callee).extend g' = (g.extend g').record caller callee := by
  induction g' generalizing g with
  | nil => rfl
  | cons e es ih =>
    rw [List.map_cons, List.mem_cons, not_or] at hnot
    have hput : (g.record caller callee).put e.1 ((g.record caller callee).callees e.1 ++ e.2) =
        CallGraph.record (g.put e.1 (g.callees e.1 ++ e.2)) caller callee := by
      rw [record, record, callees_put, callees_put, if_neg hnot.1, if_neg (Ne.symm hnot.1),
        Members.put_comm hnot.1 hmem]
    have hstill : caller ∈ (g.put e.1 (g.callees e.1 ++ e.2)).map (·.1) := by
      rw [Members.keys_put]
      split
      · exact hmem
      · exact List.mem_append_left _ hmem
    rw [extend, List.foldl_cons, hput]
    exact ih hstill hnot.2

/-- A call may be recorded before or after a graph is put behind another one. -/
theorem extend_record (g : CallGraph) {g' : CallGraph} (hnodup : (g'.map (·.1)).Nodup) :
    g.extend (g'.record caller callee) = (g.extend g').record caller callee := by
  induction g' generalizing g with
  | nil => rfl
  | cons e es ih =>
    obtain ⟨k, v⟩ := e
    rw [List.map_cons, List.nodup_cons] at hnodup
    by_cases hk : k = caller
    · subst hk
      have hcallees : CallGraph.callees ((k, v) :: es) k = v := by simp [callees, Members.get?]
      have hput : g.put k (g.callees k ++ (v ++ [callee])) =
          CallGraph.record (g.put k (g.callees k ++ v)) k callee := by
        rw [record, callees_put, if_pos rfl, Members.put_put, List.append_assoc]
      rw [record, hcallees, Members.put, if_pos rfl, extend, List.foldl_cons, hput]
      exact extend_record_of_notMem (mem_callers_put g k _) hnodup.1
    · have hcallees : CallGraph.callees ((k, v) :: es) caller = CallGraph.callees es caller := by
        simp [callees, Members.get?, hk]
      rw [record, hcallees, Members.put, if_neg hk, extend, List.foldl_cons]
      exact ih _ hnodup.2

/-- Recording calls behind others is putting their graph behind that of the others. -/
theorem recordAll_append_eq_extend (as bs : List (Text × Text)) :
    recordAll [] (as ++ bs) = (recordAll [] as).extend (recordAll [] bs) := by
  rw [recordAll_append]
  induction bs using List.reverseRecOn with
  | nil => rfl
  | append_singleton bs b ih =>
    rw [recordAll_append, recordAll_append, recordAll_singleton, recordAll_singleton, ih,
      extend_record _ (nodup_callers_recordAll bs)]

end CallGraph

namespace Inventory

/-! ### Raised numbers -/

/-- The number of a scope in a source that stands behind another one with some scopes. Outside of all
scopes nothing changes. -/
def raised (scopes scope : Nat) : Nat := if scope = 0 then 0 else scope + scopes

/-- A context behind other scopes. -/
def Context.raise (scopes : Nat) (c : Context) : Context := { c with scope := raised scopes c.scope }

/-- A declaration behind other scopes. -/
def Declaration.raise (scopes : Nat) (d : Declaration) : Declaration :=
  { d with scope := raised scopes d.scope }

namespace Findings

/-- Findings behind other scopes. -/
def raise (scopes : Nat) (f : Findings) : Findings :=
  { f with declarations := f.declarations.map (·.raise scopes) }

theorem raise_append (scopes : Nat) (f g : Findings) :
    (f ++ g).raise scopes = f.raise scopes ++ g.raise scopes := by
  ext1 <;> simp [raise]

theorem declarator?_raised (keyword : Option Text) (scopes scope : Nat) (n : AbstractNode) :
    declarator? keyword (raised scopes scope) n =
      (declarator? keyword scope n).map (·.raise scopes) := by
  unfold declarator?
  split
  · cases Draft.declared? n.head <;> rfl
  · rfl

theorem loopVariable?_raised (scopes scope : Nat) (h : NodeHead) :
    loopVariable? (raised scopes scope) h = (loopVariable? scope h).map (·.raise scopes) := by
  unfold loopVariable?
  cases h.keyword with
  | none => rfl
  | some keyword =>
    cases h.roles.target with
    | none => rfl
    | some target => cases hname : target.identifier? <;> simp [hname, Declaration.raise]

theorem import?_raised (scopes scope : Nat) (h : NodeHead) : import? (raised scopes scope) h =
    (import? scope h).map (·.raise scopes) := by
  unfold import?
  cases h.roles.source with
  | none => rfl
  | some source => by_cases hk : source.kind = .string <;> simp [hk, Declaration.raise]

/-- A node behind other scopes adds what it adds alone. -/
theorem ofNode_raise (scopes : Nat) (c : Context) (h : NodeHead) (cs : List AbstractNode) :
    ofNode (c.raise scopes) h cs = (ofNode c h cs).raise scopes := by
  have hdeclarations : declarationsOf (c.raise scopes) h cs =
      (declarationsOf c h cs).map (·.raise scopes) := by
    cases hk : h.kind with
    | functionDeclaration | functionLiteral | classDeclaration =>
      simp only [declarationsOf, hk]
      rfl
    | variableDeclaration =>
      simp only [declarationsOf, hk, Context.raise, List.map_filterMap]
      exact List.filterMap_congr fun n _ ↦ declarator?_raised h.keyword scopes c.scope n
    | loopDeclaration =>
      simp only [declarationsOf, hk, Context.raise, loopVariable?_raised]
      cases loopVariable? c.scope h <;> rfl
    | importDeclaration =>
      simp only [declarationsOf, hk, Context.raise, import?_raised]
      cases import? c.scope h <;> rfl
    | variableDeclarator | call | identifier | string | other =>
      simp only [declarationsOf, hk, List.map_nil]
  rw [ofNode, hdeclarations]
  rfl

/-- The children of a node behind other scopes inherit what they inherit alone. -/
theorem inherited_raise (scopes : Nat) (c : Context) (before : Nat) (h : NodeHead) :
    inherited (c.raise scopes) (before + scopes) h = (inherited c before h).raise scopes := by
  have hscope : (if h.kind.opensScope then before + scopes + 1 else raised scopes c.scope) =
      raised scopes (if h.kind.opensScope then before + 1 else c.scope) := by
    split
    · rw [raised, if_neg (Nat.succ_ne_zero before), Nat.add_right_comm]
    · rfl
  exact congrArg (fun scope ↦ Context.mk (inherited c before h).enclosing scope
    (inherited c before h).offered) hscope

mutual

/-- A tree behind other scopes adds what it adds alone, with their number added to those of its own. -/
theorem ofTree_raise (scopes : Nat) (c : Context) (before : Nat) :
    ∀ n, ofTree (c.raise scopes) (before + scopes) n = (ofTree c before n).raise scopes
  | .node h cs => by
    rw [ofTree, ofTree, raise_append, ← ofNode_raise, inherited_raise, Nat.add_right_comm,
      ofTrees_raise]
    rfl

/-- Several trees behind other scopes add what they add alone. -/
theorem ofTrees_raise (scopes : Nat) (c : Context) (before : Nat) :
    ∀ ns, ofTrees (c.raise scopes) (before + scopes) ns = (ofTrees c before ns).raise scopes
  | [] => rfl
  | n :: ns => by
    rw [ofTrees, ofTrees, raise_append, ofTree_raise, ← ofTrees_raise, Nat.add_right_comm]
    rfl

end

/-! ### Several trees, one behind the other -/

/-- What comes behind several trees adds nothing to them, and is found behind their scopes. -/
theorem ofTrees_append (c : Context) (scopes : Nat) (xs ys : List AbstractNode) :
    ofTrees c scopes (xs ++ ys) =
      ofTrees c scopes xs ++ ofTrees c (scopes + (ofTrees c scopes xs).scopes) ys := by
  induction xs generalizing scopes with
  | nil => exact (empty_append _).symm
  | cons x xs ih =>
    rw [List.cons_append, ofTrees, ih, ofTrees, append_assoc, scopes_append, Nat.add_assoc]

/-! ### Entities -/

/-- How many entities of a kind are found is how many declarations of the kind. -/
theorem length_ofKind (f : Findings) (k : EntityKind) :
    (f.inventory.ofKind k).length = (f.spans k).length := by
  have hspans := congrArg List.length (map_span_filter_entities k f)
  rw [ofKind_inventory]
  simpa using hspans

/-- Each scope is that of a function or a class. -/
theorem scopes_eq_length (c : Context) (scopes : Nat) (ns : List AbstractNode) :
    (ofTrees c scopes ns).scopes = (ofTrees c scopes ns).inventory.functions.length +
      (ofTrees c scopes ns).inventory.classes.length := by
  have hcount (hs : List NodeHead) : hs.countP (·.kind.opensScope) =
      (hs.filter (·.kind.declares? = some .functionKind)).length +
        (hs.filter (·.kind.declares? = some .classKind)).length := by
    induction hs with
    | nil => rfl
    | cons h hs ih =>
      rw [List.countP_cons, List.filter_cons, List.filter_cons, ih]
      cases h.kind <;>
        simp +arith [NodeKind.opensScope, NodeKind.isFunction, NodeKind.declares?]
  have hfunctions := length_ofKind (ofTrees c scopes ns) .functionKind
  have hclasses := length_ofKind (ofTrees c scopes ns) .classKind
  rw [spans_ofTrees (.inl rfl), List.length_map] at hfunctions
  rw [spans_ofTrees (.inr rfl), List.length_map] at hclasses
  rw [scopes_ofTrees, hcount, ← hfunctions, ← hclasses]
  rfl

/-- All entities are as many as the declarations. -/
theorem length_entities_inventory (f : Findings) :
    f.inventory.entities.length = f.declarations.length := by
  rw [f.entities_inventory_perm.length_eq, entities, List.length_mapIdx]

end Findings

/-- The number in an identifier is what stands behind the last underscore. -/
theorem lastSegment_identifier (kind : EntityKind) (name : Text) (line : Int) (ordinal : Nat) :
    (Draft.identifier kind name line ordinal).lastSegment = Text.ofNat ordinal := by
  rw [Draft.identifier, List.append_assoc]
  exact Text.lastSegment_append_ofNat _ ordinal

/-- An entity of a source that stands behind another one is the entity that it is alone, but the number in
its identifier and that of its scope are raised. -/
structure Raised (ordinals scopes : Nat) (e e' : Entity) : Prop where
  kind : e'.kind = e.kind
  name : e'.name = e.name
  span : e'.span = e.span
  parameters : e'.parameters = e.parameters
  keyword : e'.keyword = e.keyword
  scope : e'.scope = if e.scope = 0 then 0 else e.scope + scopes
  id : ∃ line ∈ e.line, ∃ ordinal, e.id = Draft.identifier e.kind e.name line ordinal ∧
    e'.id = Draft.identifier e.kind e.name line (ordinal + ordinals)
  /-- The number can be read off the identifier, so it is the only one that is meant. -/
  number : ∃ ordinal, e.id.lastSegment = Text.ofNat ordinal ∧
    e'.id.lastSegment = Text.ofNat (ordinal + ordinals)

theorem raised_entity (ordinals scopes ordinal : Nat) (d : Declaration) :
    Raised ordinals scopes (d.entity ordinal) ((d.raise scopes).entity (ordinal + ordinals)) where
  kind := rfl
  name := rfl
  span := rfl
  parameters := rfl
  keyword := rfl
  scope := by
    simp only [Declaration.entity, Declaration.raise, raised]
    split
    next h => simp [h]
    next h => simp [h]
  id := ⟨d.span.start.line, rfl, ordinal, rfl, rfl⟩
  number := ⟨ordinal, lastSegment_identifier .., lastSegment_identifier ..⟩

namespace Findings

/-- Behind other findings there are the entities that there are alone, raised. -/
theorem exists_entities_append (f g : Findings) :
    ∃ moved, (f ++ g.raise f.scopes).entities = f.entities ++ moved ∧
      List.Forall₂ (Raised f.declarations.length f.scopes) g.entities moved := by
  refine ⟨(g.raise f.scopes).declarations.mapIdx fun i ↦
    Declaration.entity (i + f.declarations.length), List.mapIdx_append, ?_⟩
  rw [entities, raise, List.mapIdx_eq_zipIdx_map, List.mapIdx_eq_zipIdx_map, List.zipIdx_map,
    List.map_map, List.forall₂_map_left_iff, List.forall₂_map_right_iff, List.forall₂_same]
  exact fun x _ ↦ raised_entity f.declarations.length f.scopes x.2 x.1

/-- So it is in each list, as no entity changes its kind. -/
theorem exists_ofKind_append (f g : Findings) (k : EntityKind) :
    ∃ moved, (f ++ g.raise f.scopes).inventory.ofKind k = f.inventory.ofKind k ++ moved ∧
      List.Forall₂ (Raised f.declarations.length f.scopes) (g.inventory.ofKind k) moved := by
  obtain ⟨moved, happend, hraised⟩ := f.exists_entities_append g
  have hkind : ∀ ⦃e e'⦄, Raised f.declarations.length f.scopes e e' →
      (decide (e.kind = k) = true ↔ decide (e'.kind = k) = true) := by
    intro e e' he
    rw [he.kind]
  simp only [ofKind_inventory, happend, List.filter_append]
  exact ⟨_, rfl, List.rel_filter hkind hraised⟩

end Findings

/-- A root of no kind of its own around several trees. -/
def sequence (h : NodeHead) (cs : List AbstractNode) : AbstractNode :=
  .node { h with kind := .other } cs

theorem ofTree_sequence (h : NodeHead) (cs : List AbstractNode) :
    ofTree (sequence h cs) = (Findings.ofTrees .root 0 cs).inventory := by
  have hown : Findings.ofNode .root { h with kind := .other } cs = Findings.empty := rfl
  rw [ofTree_eq_visitTree, Findings.inventory_visitTree, sequence, Findings.ofTree, hown,
    Findings.empty_append]
  rfl

/-- Code that is put behind other code changes nothing in what is found there, and is itself found as it is
alone. In each list the entities of the first source come first and those of the second one after
them, in whose identifiers the number is raised by the number of entities of the first source, and
whose scopes, unless they are zero, by that of its functions and classes. The calls of the second
source are put behind those of the first one, caller by caller. -/
theorem ofTree_sequence_append (h hx hy : NodeHead) (xs ys : List AbstractNode) :
    let both := ofTree (sequence h (xs ++ ys))
    let first := ofTree (sequence hx xs)
    let second := ofTree (sequence hy ys)
    let ordinals := first.entities.length
    let scopes := first.functions.length + first.classes.length
    (∀ k, ∃ moved, both.ofKind k = first.ofKind k ++ moved ∧
        List.Forall₂ (Raised ordinals scopes) (second.ofKind k) moved) ∧
      both.calls = first.calls.extend second.calls := by
  intro both first second ordinals scopes
  have hfirst : first = (Findings.ofTrees .root 0 xs).inventory := ofTree_sequence hx xs
  have hsecond : second = (Findings.ofTrees .root 0 ys).inventory := ofTree_sequence hy ys
  have hordinals : ordinals = (Findings.ofTrees .root 0 xs).declarations.length := by
    simp only [ordinals, hfirst, Findings.length_entities_inventory]
  have hscopes : scopes = (Findings.ofTrees .root 0 xs).scopes := by
    simp only [scopes, hfirst, Findings.scopes_eq_length]
  have hboth : both = (Findings.ofTrees .root 0 xs ++
      (Findings.ofTrees .root 0 ys).raise scopes).inventory := by
    have hraise : Findings.ofTrees .root (0 + scopes) ys =
        (Findings.ofTrees .root 0 ys).raise scopes :=
      Findings.ofTrees_raise scopes .root 0 ys
    rw [← hraise, hscopes, ← Findings.ofTrees_append]
    exact ofTree_sequence h (xs ++ ys)
  rw [hboth, hfirst, hsecond, hordinals, hscopes]
  exact ⟨Findings.exists_ofKind_append _ _, CallGraph.recordAll_append_eq_extend _ _⟩

/-- A class with a function in it, alone and behind two functions. -/
example :
    let span (line : Int) : Span := ⟨⟨line, 0⟩, ⟨line, 0⟩⟩
    let part (name : String) : Part := ⟨.identifier, Text.ofString name, span 1⟩
    let declaration (kind : NodeKind) (name : String) (line : Int) (cs : List AbstractNode) :=
      AbstractNode.node ⟨kind, span line, none, { Roles.none with name := some (part name) }, []⟩ cs
    let root : NodeHead := ⟨.other, span 1, none, .none, []⟩
    let xs := [declaration .functionDeclaration "f" 1 [], declaration .functionDeclaration "g" 2 []]
    let ys := [declaration .classDeclaration "C" 3 [declaration .functionDeclaration "h" 4 []]]
    let numbered (cs : List AbstractNode) :=
      (ofTree (sequence root cs)).entities.map fun e ↦ (e.id, e.scope)
    numbered ys = [(Text.ofString "function_h_4_1", 1), (Text.ofString "class_C_3_0", 0)] ∧
      numbered (xs ++ ys) =
        [(Text.ofString "function_f_1_0", 0), (Text.ofString "function_g_2_1", 0),
          (Text.ofString "function_h_4_3", 3), (Text.ofString "class_C_3_2", 0)] := by
  decide +kernel

end Inventory

end CodeAtlas
