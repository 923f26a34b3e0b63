import CodeAtlas.Inventory.Extraction

/-!
# Nodes in their places

`AbstractNode.occurrences` lists the nodes of a tree in document order, each with the nodes around it.
From its place alone one can tell which name a function gets, which function is nearest around a node,
and which call a node records.
-/

namespace CodeAtlas.Syntax

/-- A node in its place. -/
structure Occurrence where
  head : NodeHead
  /-- The heads of the nodes around it, the nearest first. -/
  around : List NodeHead
  deriving DecidableEq

namespace AbstractNode

mutual

/-- The nodes of a tree in its place, each before those below it. -/
def occurrences (around : List NodeHead) : AbstractNode → List Occurrence
  | node h cs => ⟨h, around⟩ :: occurrencesOfAll (h :: around) cs

/-- The nodes of several trees that stand in the same place. -/
def occurrencesOfAll (around : List NodeHead) : List AbstractNode → List Occurrence
  | [] => []
  | c :: cs => occurrences around c ++ occurrencesOfAll around cs

end

mutual

/-- What stands around a node of a tree, but not around the tree, is in the tree as well. -/
theorem mem_occurrences_of_around {around : List NodeHead} {o : Occurrence} :
    ∀ n, o ∈ occurrences around n → ∀ h hs, h :: hs <:+ o.around →
      h :: hs <:+ around ∨ ⟨h, hs⟩ ∈ occurrences around n
  | node h' cs, ho, h, hs, hsuffix => by
    rw [occurrences] at ho ⊢
    rcases List.mem_cons.1 ho with rfl | ho
    · exact .inl hsuffix
    · rcases mem_occurrencesOfAll_of_around cs ho h hs hsuffix with hout | hin
      · rcases List.suffix_cons_iff.1 hout with heq | hout
        · cases heq
          exact .inr (List.mem_cons_self ..)
        · exact .inl hout
      · exact .inr (List.mem_cons_of_mem _ hin)

/-- What stands around a node of several trees, but not around the trees, is in one of them. -/
theorem mem_occurrencesOfAll_of_around {around : List NodeHead} {o : Occurrence} :
    ∀ ns, o ∈ occurrencesOfAll around ns → ∀ h hs, h :: hs <:+ o.around →
      h :: hs <:+ around ∨ ⟨h, hs⟩ ∈ occurrencesOfAll around ns
  | [], ho, _, _, _ => by cases ho
  | n :: ns, ho, h, hs, hsuffix => by
    rw [occurrencesOfAll] at ho ⊢
    rcases List.mem_append.1 ho with ho | ho
    · rcases mem_occurrences_of_around n ho h hs hsuffix with hout | hin
      · exact .inl hout
      · exact .inr (List.mem_append_left _ hin)
    · rcases mem_occurrencesOfAll_of_around ns ho h hs hsuffix with hout | hin
      · exact .inl hout
      · exact .inr (List.mem_append_right _ hin)

end

end AbstractNode

namespace Occurrence

open Inventory (anonymous)

/-- The name that a declarator offers to its children: that of the identifier it binds. -/
def offered? (around : List NodeHead) : Option Text :=
  match around with
  | [] => none
  | h :: _ => if h.kind = .variableDeclarator then h.roles.name.bind Part.identifier? else none

/-- The name that a function gets: a declared one its own, another one the name that is offered to it.
A name that is missing or, for the latter, empty is replaced. -/
def functionName (o : Occurrence) : Text :=
  if o.head.kind = .functionLiteral then
    match offered? o.around with
    | some name => if name = [] then anonymous else name
    | none => anonymous
  else
    match o.head.roles.name with
    | some part => part.text
    | none => anonymous

/-- The name of the nearest function around a node. -/
def enclosing? : List NodeHead → Option Text
  | [] => none
  | h :: hs => if h.kind.isFunction then some (functionName ⟨h, hs⟩) else enclosing? hs

/-- The call that a node records: a call of an identifier, within a function. -/
def call? (o : Occurrence) : Option (Text × Text) :=
  if o.head.kind = .call then
    match enclosing? o.around, o.head.roles.callee with
    | some caller, some callee =>
      if callee.kind = .identifier then some (caller, callee.text) else none
    | _, _ => none
  else none

/-- The calls that several nodes record. -/
def callsOf (os : List Occurrence) : List (Text × Text) := os.filterMap call?

/-- The functions among several nodes: what each of them is called and where it stands. -/
def functionsOf (os : List Occurrence) : List (Text × Option Span) :=
  (os.filter (·.head.kind.isFunction)).map fun o ↦ (o.functionName, some o.head.span)

theorem callsOf_append (os ps : List Occurrence) : callsOf (os ++ ps) = callsOf os ++ callsOf ps :=
  List.filterMap_append

theorem functionsOf_append (os ps : List Occurrence) :
    functionsOf (os ++ ps) = functionsOf os ++ functionsOf ps := by
  simp [functionsOf]

/-- A name that encloses a node is that of a function around it. -/
theorem exists_suffix_of_enclosing? {around : List NodeHead} {name : Text}
    (h : enclosing? around = some name) :
    ∃ f fs, f :: fs <:+ around ∧ f.kind.isFunction = true ∧ functionName ⟨f, fs⟩ = name := by
  induction around with
  | nil => cases h
  | cons f fs ih =>
    rw [enclosing?] at h
    split at h
    · next hf => exact ⟨f, fs, List.suffix_refl _, hf, Option.some.inj h⟩
    · obtain ⟨f', fs', hsuffix, hrest⟩ := ih h
      exact ⟨f', fs', hsuffix.trans (List.suffix_cons f fs), hrest⟩

/-- The caller of a recorded call is the nearest function around it. -/
theorem enclosing?_of_call? {o : Occurrence} {call : Text × Text} (h : o.call? = some call) :
    enclosing? o.around = some call.1 := by
  unfold call? at h
  split at h
  · split at h
    · next caller callee hcaller hcallee =>
      split at h
      · cases h
        exact hcaller
      · cases h
    · cases h
  · cases h

/-- Whoever makes a call within a tree is a function of the tree. -/
theorem exists_mem_functionsOf {root : AbstractNode} {call : Text × Text}
    (h : call ∈ callsOf (root.occurrences [])) :
    ∃ span, (call.1, span) ∈ functionsOf (root.occurrences []) := by
  obtain ⟨o, ho, hcall⟩ := List.mem_filterMap.1 h
  obtain ⟨f, fs, hsuffix, hf, hname⟩ := exists_suffix_of_enclosing? (enclosing?_of_call? hcall)
  rcases AbstractNode.mem_occurrences_of_around root ho f fs hsuffix with hout | hin
  · simp at hout
  · refine ⟨some f.span, List.mem_map.2 ⟨⟨f, fs⟩, List.mem_filter.2 ⟨hin, hf⟩, ?_⟩⟩
    rw [hname]

end Occurrence

end CodeAtlas.Syntax
