import CodeAtlas.Diagnosis
import CodeAtlas.Proofs.Syntax.Placed
import Mathlib.Data.List.Forall2

/-!
# Outermost faults

A fault below another one repeats the same failure. `ConcreteNode.outermostFaults` lists the faults of a
tree that have no fault around them, in document order. The search for faults goes through a stack, looks
into no node that has no error, and stops when there is no more room; still it finds the first outermost
faults and nothing else (`faults_eq_take`), since a node without an error holds no fault. A tree is
explained by them, or at its root if there are none. Main statement: `explained_ofTree`.
-/

namespace CodeAtlas

namespace Syntax

/-- Whether a node is a fault and none of the nodes around it is one. -/
def Placed.isOutermostFault (p : Placed) : Bool := p.node.isFault && !p.around.any (·.isFault)

namespace ConcreteNode

/-- The faults of a tree that have no fault around them, in document order. -/
def outermostFaults (root : ConcreteNode) : List ConcreteNode :=
  ((placed [] root).filter (·.isOutermostFault)).map (·.node)

theorem outermostFaults_sublist (root : ConcreteNode) :
    root.outermostFaults.Sublist root.nodes := by
  rw [← map_node_placed []]
  exact List.filter_sublist.map _

/-! ### Faults from the root downwards -/

mutual

/-- The faults that are met first on the way down. -/
def firstFaults : ConcreteNode → List ConcreteNode
  | node h cs => if isFault (node h cs) then [node h cs] else firstFaultsOfAll cs

/-- The faults that are met first on the ways down several trees. -/
def firstFaultsOfAll : List ConcreteNode → List ConcreteNode
  | [] => []
  | c :: cs => firstFaults c ++ firstFaultsOfAll cs

end

theorem firstFaultsOfAll_eq_flatMap (cs : List ConcreteNode) :
    firstFaultsOfAll cs = cs.flatMap firstFaults := by
  induction cs with
  | nil => rfl
  | cons c cs ih => rw [firstFaultsOfAll, ih, List.flatMap_cons]

theorem firstFaults_of_isFault {n : ConcreteNode} (h : n.isFault = true) : firstFaults n = [n] := by
  cases n with
  | node _ cs => rw [firstFaults, if_pos h]

theorem firstFaults_of_not_isFault {n : ConcreteNode} (h : ¬ n.isFault = true) :
    firstFaults n = n.children.flatMap firstFaults := by
  cases n with
  | node _ cs => rw [firstFaults, if_neg h, firstFaultsOfAll_eq_flatMap, children]

mutual

/-- A tree without an error holds no fault. -/
theorem firstFaults_of_not_hasError : ∀ n, hasError n = false → firstFaults n = []
  | node h cs, herror => by
    simp only [hasError, Bool.or_eq_false_iff] at herror
    obtain ⟨⟨⟨hmissing, -⟩, hkind⟩, hbelow⟩ := herror
    have hfault : isFault (node h cs) = false := Bool.or_eq_false_iff.2 ⟨hmissing, hkind⟩
    rw [firstFaults, hfault, if_neg Bool.false_ne_true, firstFaultsOfAll_of_not_anyError cs hbelow]

/-- Trees without errors hold no faults. -/
theorem firstFaultsOfAll_of_not_anyError : ∀ ns, anyError ns = false → firstFaultsOfAll ns = []
  | [], _ => rfl
  | n :: ns, herror => by
    rw [anyError, Bool.or_eq_false_iff] at herror
    rw [firstFaultsOfAll, firstFaults_of_not_hasError n herror.1,
      firstFaultsOfAll_of_not_anyError ns herror.2, List.append_nil]

end

mutual

/-- Below a fault there is no outermost one; elsewhere they are those met first. -/
theorem outermost_placed (around : List ConcreteNode) :
    ∀ n, ((placed around n).filter (·.isOutermostFault)).map (·.node) =
      if around.any (·.isFault) then [] else firstFaults n
  | node h cs => by
    have hbelow := outermost_placedAll (node h cs :: around) cs
    rw [List.any_cons] at hbelow
    rw [placed, firstFaults, List.filter_cons, Placed.isOutermostFault]
    by_cases haround : around.any (·.isFault) = true
    · simp [haround, hbelow]
    · by_cases hfault : isFault (node h cs) = true
      · simp [haround, hfault, hbelow]
      · simp [haround, hfault, hbelow]

/-- Below a fault there is no outermost one; in other places they are those met first. -/
theorem outermost_placedAll (around : List ConcreteNode) :
    ∀ ns, ((placedAll around ns).filter (·.isOutermostFault)).map (·.node) =
      if around.any (·.isFault) then [] else firstFaultsOfAll ns
  | [] => by simp [placedAll, firstFaultsOfAll]
  | n :: ns => by
    rw [placedAll, List.filter_append, List.map_append, outermost_placed, outermost_placedAll,
      firstFaultsOfAll]
    split <;> rfl

end

/-- The outermost faults are those that are met first on the way down. -/
theorem outermostFaults_eq_firstFaults (root : ConcreteNode) :
    root.outermostFaults = root.firstFaults :=
  outermost_placed [] root

end ConcreteNode

end Syntax

open Syntax

namespace Diagnosis

/-! ### The search for faults -/

/-- The search goes through the faults that are met first, and stops when there is no more room. -/
theorem faults_eq_take (room : Nat) (stack : List ConcreteNode) :
    faults room stack = (stack.flatMap (·.firstFaults)).take room := by
  fun_induction faults room stack with
  | case1 => simp
  | case2 n stack => rw [List.take_zero]
  | case3 room n stack hroom hfault ih =>
    obtain ⟨m, rfl⟩ := Nat.exists_eq_succ_of_ne_zero hroom
    rw [List.flatMap_cons, ConcreteNode.firstFaults_of_isFault hfault, List.singleton_append,
      List.take_succ_cons, ih, Nat.succ_sub_one]
  | case4 room n stack hroom hfault herror ih =>
    rw [ih, List.flatMap_append, List.flatMap_cons,
      ConcreteNode.firstFaults_of_not_isFault hfault]
  | case5 room n stack hroom hfault herror ih =>
    have hclean : n.hasError = false := Bool.eq_false_iff.2 herror
    rw [ih, List.flatMap_cons, ConcreteNode.firstFaults_of_not_hasError n hclean, List.nil_append]

/-- From the root the search finds the first outermost faults, as many as there is room for. -/
theorem faults_root (room : Nat) (root : ConcreteNode) :
    faults room [root] = root.outermostFaults.take room := by
  rw [faults_eq_take, List.flatMap_singleton, ConcreteNode.outermostFaults_eq_firstFaults]

/-- There are no more faults than there is room for. -/
theorem length_faults_le (room : Nat) (stack : List ConcreteNode) :
    (faults room stack).length ≤ room := by
  rw [faults_eq_take]
  exact List.length_take_le _ _

/-- The faults that are found are nodes of the tree, in document order. -/
theorem faults_root_sublist (room : Nat) (root : ConcreteNode) :
    (faults room [root]).Sublist root.nodes := by
  rw [faults_root]
  exact (List.take_sublist _ _).trans root.outermostFaults_sublist

/-! ### Explanations -/

/-- What is wrong at a fault. -/
def causeOf (source : Text) (n : ConcreteNode) : Cause :=
  if n.head.missing then .missing n.head.kind else describe (Utf8.encode source) n

theorem ofFault_eq_atNode (source : Text) (n : ConcreteNode) :
    ofFault source n = atNode source n (causeOf source n) := by
  unfold ofFault causeOf
  split <;> rfl

/-- If there is a fault, a tree is explained by those that are found. -/
theorem ofTree_of_faults_ne_nil (source : Text) {root : ConcreteNode}
    (h : faults limit [root] ≠ []) :
    ofTree source root = (faults limit [root]).map fun n ↦ atNode source n (causeOf source n) := by
  unfold ofTree
  split
  next hnil => exact absurd hnil h
  next => exact List.map_congr_left fun n _ ↦ ofFault_eq_atNode source n

/-- If there is none, it is explained at its root. -/
theorem ofTree_of_faults_eq_nil (source : Text) {root : ConcreteNode} (h : faults limit [root] = []) :
    ofTree source root = [atNode source root .unexplained] := by
  rw [ofTree, h]

/-- Some words are said of a node: at its start, with the advice that the words ask for. -/
structure Says (source : Text) (words : Text) (n : ConcreteNode) (d : Diagnostic) : Prop where
  message : d.message = words
  start : (⟨d.line, d.column⟩ : Position) = .at (Utf8.encode source) n.head.start
  suggestion : d.suggestion = suggest words

theorem says_atNode (source : Text) (n : ConcreteNode) (cause : Cause) :
    Says source cause.message n (atNode source n cause) :=
  ⟨rfl, rfl, rfl⟩

/-- A tree is explained by its first ten outermost faults, in document order: of each one that was put in
the missing token is named, and of the others it is said what could not be read. If there is no fault at
all, it is only said at the root that something is unexpected. An explanation is never empty. -/
theorem explained_ofTree (source : Text) (root : ConcreteNode) :
    let words (n : ConcreteNode) : Text :=
      if n.head.missing then
        Text.ofString "Unexpected token, expected '" ++ n.head.kind ++ Text.ofString "'"
      else (describe (Utf8.encode source) n).message
    (root.outermostFaults ≠ [] →
        List.Forall₂ (fun n d ↦ Says source (words n) n d) (root.outermostFaults.take 10)
          (ofTree source root)) ∧
      (root.outermostFaults = [] → ∃ d, ofTree source root = [d] ∧
        Says source (Text.ofString "Unexpected token") root d) ∧
      ofTree source root ≠ [] := by
  intro words
  have hfaults : faults limit [root] = root.outermostFaults.take 10 := faults_root limit root
  refine ⟨fun hne ↦ ?_, fun hnil ↦ ?_, ofTree_ne_nil source root⟩
  · have hwords (n : ConcreteNode) : words n = (causeOf source n).message := by
      unfold words causeOf
      split <;> rfl
    have htake : faults limit [root] ≠ [] := by
      rw [hfaults]
      simpa using hne
    rw [ofTree_of_faults_ne_nil source htake, hfaults, List.forall₂_map_right_iff]
    refine List.forall₂_same.2 fun n _ ↦ ?_
    rw [hwords]
    exact says_atNode source n (causeOf source n)
  · refine ⟨atNode source root .unexplained, ?_, says_atNode source root .unexplained⟩
    apply ofTree_of_faults_eq_nil
    rw [hfaults, hnil, List.take_nil]

end Diagnosis

end CodeAtlas
