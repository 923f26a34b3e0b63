import CodeAtlas.Proofs.Inventory.Resemblance

/-!
# Comments and grouping parentheses in a source

What an inventory says of a source does not depend on grouping parentheses, and on a comment only where
it stands next to a node within such parentheses: two named nodes are not seen through. Each change of
these kinds leaves a node that resembles the one before (`Changed.resembles`), so any number of them
leaves a root whose view agrees. Main statements: `ofTree_view_grouped`, `ofTree_view_commented` and,
for the comment that hides what is in parentheses, `ofTree_view_comment_hides`.
-/

namespace CodeAtlas

namespace Syntax.ConcreteNode

open Inventory.Findings

/-- The changes that leave alone what an inventory says of a source. -/
inductive Neutral (around : List ConcreteNode) (n m : ConcreteNode) : Prop
  | comment : CommentsApart around n m → Neutral around n m
  | group : Groups around n m → Neutral around n m

variable {octets : List UInt8} {around : List ConcreteNode} {n m : ConcreteNode}

/-- A change below the root leaves a node that resembles the one before. -/
theorem Changed.resembles (h : Changed Neutral around n m) (haround : around ≠ []) :
    Resembles octets around n m := by
  induction h with
  | here h =>
    rcases h with ⟨⟨hcomment⟩, hgrouping⟩ | hgroup
    · exact (ResembleAll.put _ _ hcomment).resembles (hgrouping haround)
    · exact .of_groups octets hgroup
  | within _ ih =>
    have hcd := ih (List.cons_ne_nil _ _)
    exact (ResembleAll.replaced _ _ hcd).resembles (isGrouping_replaced _ _ _ hcd.named)

/-- A change of a tree leaves a root whose view agrees with that of the one before. -/
theorem Changed.agree_view (h : Changed Neutral [] n m) : Agree (n.view octets) (m.view octets) := by
  cases h with
  | here h =>
    rcases h with ⟨@⟨hd, before, c, after, hcomment⟩, -⟩ | hgroup
    · have hcs : ResembleAll octets [node hd (before ++ after)] (before ++ after)
          (before ++ c :: after) := .put before after hcomment
      exact hcs.agree_view
    · exact absurd rfl hgroup.inner
  | within h => exact (ResembleAll.replaced _ _ (h.resembles (List.cons_ne_nil _ _))).agree_view

/-! ### The tree of a constant -/

/-- The tree of `f = …` behind `const`, with the nodes behind the equals sign. -/
def declarator (stop : Nat) (value : List ConcreteNode) : ConcreteNode :=
  branch "variable_declarator" 6 stop none
    (branch "identifier" 6 7 (some "name") [] :: token "=" 8 9 :: value)

/-- The tree of `const f = …;`, without the root. -/
def declaration (stop : Nat) (value : List ConcreteNode) : ConcreteNode :=
  branch "lexical_declaration" 0 (stop + 1) none
    [token "const" 0 5, declarator stop value, token ";" stop (stop + 1)]

/-- The tree of `const f = …;`. -/
def constant (stop : Nat) (value : List ConcreteNode) : ConcreteNode :=
  branch "program" 0 (stop + 1) none [declaration stop value]

/-- The tree of `() => g()`. -/
def arrow (start : Nat) (role : Option String) : ConcreteNode :=
  branch "arrow_function" start (start + 9) role [
    branch "formal_parameters" start (start + 2) (some "parameters")
      [token "(" start (start + 1), token ")" (start + 1) (start + 2)],
    token "=>" (start + 3) (start + 5),
    branch "call_expression" (start + 6) (start + 9) (some "body") [
      branch "identifier" (start + 6) (start + 7) (some "function") [],
      branch "arguments" (start + 7) (start + 9) (some "arguments")
        [token "(" (start + 7) (start + 8), token ")" (start + 8) (start + 9)]]]

/-- The tree of a node in parentheses. -/
def parenthesized (start stop : Nat) (role : Option String) (cs : List ConcreteNode) :
    ConcreteNode :=
  branch "parenthesized_expression" start stop role
    (token "(" start (start + 1) :: cs ++ [token ")" (stop - 1) stop])

/-- A node is put into parentheses, unless it is the root, a keyword, or fixed. -/
theorem groups_parenthesized (start stop : Nat) (role : Option String) {around : List ConcreteNode}
    {n : ConcreteNode} (hrole : n.head.field = role.map Text.ofString) (haround : around ≠ [])
    (hnamed : n.head.named = true) (hkeyword : n.isKeyword = false)
    (hfixed : isFixed (n :: around) = false) :
    Groups around n (parenthesized start stop role [n.inRole none]) := by
  refine ⟨haround, hnamed, hkeyword, hfixed, (branch "" start stop none []).head,
    (token "" start (start + 1)).head, (token "" (stop - 1) stop).head, none, ?_⟩
  rw [grouped, hrole]
  rfl

/-- A change of the declarator changes the constant. -/
theorem changed_constant {R : List ConcreteNode → ConcreteNode → ConcreteNode → Prop} {stop : Nat}
    {value value' : List ConcreteNode}
    (h : Changed R [declaration stop value, constant stop value] (declarator stop value)
      (declarator stop value')) :
    Changed R [] (constant stop value) (constant stop value') :=
  @Changed.within R [] _ [] _ _ []
    (@Changed.within R _ _ [token "const" 0 5] _ _ [token ";" stop (stop + 1)] h)

/-- A change of a node behind the equals sign changes the constant. -/
theorem changed_constant_value {R : List ConcreteNode → ConcreteNode → ConcreteNode → Prop}
    {stop : Nat} {c d : ConcreteNode}
    (h : Changed R [declarator stop [c], declaration stop [c], constant stop [c]] c d) :
    Changed R [] (constant stop [c]) (constant stop [d]) :=
  changed_constant (@Changed.within R _ _
    [branch "identifier" 6 7 (some "name") [], token "=" 8 9] _ _ [] h)

end Syntax.ConcreteNode

namespace Inventory

open Syntax ConcreteNode

variable {root root' : ConcreteNode}

/-- Changes that each leave a root whose view agrees leave the inventory. -/
theorem ofTree_view_of_becomes (octets : List UInt8) (h : Becomes Neutral root root') :
    ofTree (root'.view octets) = ofTree (root.view octets) := by
  induction h with
  | refl => rfl
  | tail _ hstep ih => rw [hstep.agree_view.ofTree_eq, ih]

/-- Grouping parentheses change nothing. An inventory is the same if named nodes of a source are put
into parentheses one after the other, any nodes any number of times, apart from keywords and from the
nodes that a function takes as they stand: its parameter list or its one parameter, the parameters in
the list, and what these bind. -/
theorem ofTree_view_grouped (octets : List UInt8) (h : Becomes Groups root root') :
    ofTree (root'.view octets) = ofTree (root.view octets) :=
  ofTree_view_of_becomes octets (h.mono fun _ _ _ ↦ .group)

/-- A function that is put into two pairs of parentheses keeps the name of its constant. -/
theorem ofTree_view_grouped_twice :
    let octets := Utf8.encode (Text.ofString "const f = ((() => g()));")
    let plain := constant 23 [arrow 12 (some "value")]
    let twice := constant 23
      [parenthesized 10 23 (some "value") [parenthesized 11 22 none [arrow 12 none]]]
    Becomes Groups plain twice ∧ ofTree (twice.view octets) = ofTree (plain.view octets) ∧
      (ofTree (plain.view octets)).functions.map (·.name) = [Text.ofString "f"] := by
  intro octets plain twice
  have hfirst : Changed Groups [] plain
      (constant 23 [parenthesized 11 22 (some "value") [arrow 12 none]]) :=
    changed_constant_value (.here (groups_parenthesized 11 22 (some "value") rfl
      (List.cons_ne_nil _ _) rfl (by decide +kernel) (by decide +kernel)))
  have hsecond : Changed Groups []
      (constant 23 [parenthesized 11 22 (some "value") [arrow 12 none]]) twice :=
    changed_constant_value (.here (groups_parenthesized 10 23 (some "value") rfl
      (List.cons_ne_nil _ _) rfl (by decide +kernel) (by decide +kernel)))
  have hbecomes := Relation.ReflTransGen.tail (.single hfirst) hsecond
  refine ⟨hbecomes, ofTree_view_grouped octets hbecomes, ?_⟩
  rw [ofTree_eq_visitTree, Findings.inventory_visitTree]
  decide +kernel

/-- Comments change nothing, wherever they are put and how many there are, if no node below the root
becomes a grouping through them or ceases to be one. -/
theorem ofTree_view_commented (octets : List UInt8) (h : Becomes CommentsApart root root') :
    ofTree (root'.view octets) = ofTree (root.view octets) :=
  ofTree_view_of_becomes octets (h.mono fun _ _ _ ↦ .comment)

/-- A comment before the parentheses leaves alone what is seen through them. -/
theorem ofTree_view_commented_before :
    let octets := Utf8.encode (Text.ofString "const f = /* why */ (() => g());")
    let comment := branch "comment" 10 19 none []
    let value := parenthesized 20 31 (some "value") [arrow 21 none]
    let plain := constant 31 [value]
    let commented := constant 31 [comment, value]
    Becomes CommentsApart plain commented ∧
      ofTree (commented.view octets) = ofTree (plain.view octets) ∧
      (ofTree (plain.view octets)).functions.map (·.name) = [Text.ofString "f"] := by
  intro octets comment value plain commented
  have hput : Comments [declaration 31 [value], plain] (declarator 31 [value])
      (declarator 31 [comment, value]) :=
    @Comments.put _ _ [branch "identifier" 6 7 (some "name") [], token "=" 8 9] comment [value]
      ⟨rfl, rfl, rfl, rfl⟩
  have hbecomes : Becomes CommentsApart plain commented :=
    .single (changed_constant (.here ⟨hput, fun _ ↦ by decide +kernel⟩))
  refine ⟨hbecomes, ofTree_view_commented octets hbecomes, ?_⟩
  rw [ofTree_eq_visitTree, Findings.inventory_visitTree]
  decide +kernel

/-- A comment within the parentheses hides the function, although there is no error in the source: the
function loses the name of its constant. -/
theorem ofTree_view_comment_hides :
    let octets := Utf8.encode (Text.ofString "const f = (/* why */ () => g());")
    let comment := branch "comment" 11 20 none []
    let plain := constant 31 [parenthesized 10 31 (some "value") [arrow 21 none]]
    let commented := constant 31 [parenthesized 10 31 (some "value") [comment, arrow 21 none]]
    plain.hasError = false ∧ Becomes Comments plain commented ∧
      (ofTree (plain.view octets)).functions.map (·.name) = [Text.ofString "f"] ∧
      (ofTree (commented.view octets)).functions.map (·.name) = [Text.ofString "anonymous"] ∧
      ofTree (commented.view octets) ≠ ofTree (plain.view octets) := by
  intro octets comment plain commented
  have hput : Changed Comments [] plain commented :=
    changed_constant_value (.here (@Comments.put _ _ [token "(" 10 11] comment
      [arrow 21 none, token ")" 30 31] ⟨rfl, rfl, rfl, rfl⟩))
  have hname : (ofTree (plain.view octets)).functions.map (·.name) = [Text.ofString "f"] := by
    rw [ofTree_eq_visitTree, Findings.inventory_visitTree]
    decide +kernel
  have hlost : (ofTree (commented.view octets)).functions.map (·.name) =
      [Text.ofString "anonymous"] := by
    rw [ofTree_eq_visitTree, Findings.inventory_visitTree]
    decide +kernel
  refine ⟨by decide +kernel, .single hput, hname, hlost, fun hsame ↦ ?_⟩
  have hdifferent : [Text.ofString "f"] ≠ [Text.ofString "anonymous"] := by decide +kernel
  rw [hsame, hname] at hlost
  exact hdifferent hlost

end Inventory

end CodeAtlas
