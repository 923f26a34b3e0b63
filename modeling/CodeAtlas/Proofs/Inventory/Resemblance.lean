import CodeAtlas.Proofs.Inventory.Agreement
import CodeAtlas.Proofs.Syntax.Change

/-!
# Nodes that resemble each other

Two nodes resemble each other at a place if the node above, and the function whose parameter the node
may belong to, learn the same from both (`Resembles`). If the children of two nodes with one head
resemble each other, apart from comments that only the second node has, then the nodes have views that
agree (`ResembleAll.agree_view`), and they resemble each other if both or neither of them is a grouping
(`ResembleAll.resembles`).
-/

namespace CodeAtlas.Syntax.ConcreteNode

open Inventory.Findings

/-! ### What a function asks of its parameters -/

/-- What a pattern binds, apart from its default value. -/
def target (n : ConcreteNode) : ConcreteNode :=
  if n.isA "assignment_pattern" then (n.child? (Text.ofString "left")).getD n else n

/-- The texts of what the parameters in a list bind. -/
def bindings (octets : List UInt8) (n : ConcreteNode) : List Text :=
  (n.namedChildren.filter fun p ↦ !p.isA "comment").map fun p ↦ p.binding.text octets

/-- The text of a target is that of the child which is given a default value. -/
theorem text_target (octets : List UInt8) (n : ConcreteNode) : n.target.text octets =
    if n.isA "assignment_pattern" then
      ((n.child? (Text.ofString "left")).map (text octets)).getD (n.text octets)
    else n.text octets := by
  rw [target]
  split
  · cases n.child? (Text.ofString "left") <;> rfl
  · rfl

/-- The text of what is bound is that of the target of a pattern. -/
theorem text_binding (octets : List UInt8) (n : ConcreteNode) : n.binding.text octets =
    if n.isParameter then
      ((n.child? (Text.ofString "pattern")).map fun p ↦ p.target.text octets).getD
        (n.target.text octets)
    else n.target.text octets := by
  have hbinding : n.binding =
      target (if n.isParameter then (n.child? (Text.ofString "pattern")).getD n else n) := rfl
  rw [hbinding]
  split
  · cases n.child? (Text.ofString "pattern") <;> rfl
  · rfl

/-- The texts of the parameters of a function are those that its list binds, or that of the one
parameter without a list. -/
theorem map_text_parameters (octets : List UInt8) (n : ConcreteNode) :
    n.parameters.map (text octets) =
      ((n.child? (Text.ofString "parameters")).map (bindings octets)).getD
        ((n.child? (Text.ofString "parameter")).map (text octets)).toList := by
  rw [parameters]
  cases n.child? (Text.ofString "parameters") with
  | some ps => simp [bindings]
  | none => cases n.child? (Text.ofString "parameter") <;> rfl

/-! ### Comments -/

theorem IsComment.isKeyword {n : ConcreteNode} (h : IsComment n) : n.isKeyword = false := by
  rw [isKeyword_eq, h.kind]
  decide +kernel

theorem IsComment.isGrouping {n : ConcreteNode} (h : IsComment n) : n.isGrouping = false := by
  have hother : Text.ofString "comment" ≠ Text.ofString "parenthesized_expression" := by
    decide +kernel
  simp [ConcreteNode.isGrouping, isA, h.kind, hother]

theorem IsComment.nodeKind {n : ConcreteNode} (h : IsComment n) : n.nodeKind = .other := by
  have hnames : kindNames.find? (fun k ↦ Text.ofString "comment" = Text.ofString k.1) = none := by
    decide +kernel
  simp only [ConcreteNode.nodeKind, isA, h.named, h.kind, hnames, if_true]

/-- A comment is viewed as an idle leaf. -/
theorem IsComment.idle {n : ConcreteNode} (h : IsComment n) (octets : List UInt8) :
    Idle (viewSeen octets n) := by
  have hkind := h.nodeKind
  rw [viewSeen_eq, seen_of_not_isGrouping h.isGrouping]
  cases n with
  | node hd cs =>
    obtain rfl : cs = [] := h.children
    exact idle_leaf hkind

/-! ### Nodes -/

/-- The node above, and the function whose parameter a node may belong to, learn the same from another
node in its place. -/
structure Resembles (octets : List UInt8) (around : List ConcreteNode) (n m : ConcreteNode) :
    Prop where
  named : m.head.named = n.head.named
  field : m.head.field = n.head.field
  head : m.head = n.head ∨
    n.isKeyword = false ∧ m.isKeyword = false ∧ isFixed (n :: around) = false
  part : part octets (seen m) = part octets (seen n)
  agree : Agree (viewSeen octets n) (viewSeen octets m)
  bindings : isParameterList (n :: around) = true → m.bindings octets = n.bindings octets
  binding : isListed (n :: around) = true → m.binding.text octets = n.binding.text octets
  target : isListed (n :: around) = true ∨ isPattern (n :: around) = true →
    m.target.text octets = n.target.text octets

namespace Resembles

variable {octets : List UInt8} {around : List ConcreteNode} {n m : ConcreteNode}

theorem refl (octets : List UInt8) (around : List ConcreteNode) (n : ConcreteNode) :
    Resembles octets around n n :=
  ⟨rfl, rfl, .inl rfl, rfl, .refl _, fun _ ↦ rfl, fun _ ↦ rfl, fun _ ↦ rfl⟩

theorem head_of_isFixed (h : Resembles octets around n m) (hn : isFixed (n :: around) = true) :
    m.head = n.head := by
  rcases h.head with hhead | ⟨-, -, hfree⟩
  · exact hhead
  · rw [hn] at hfree
    cases hfree

theorem text_of_isFixed (h : Resembles octets around n m) (hn : isFixed (n :: around) = true) :
    m.text octets = n.text octets := by
  rw [text, text, h.head_of_isFixed hn]

theorem isKeyword (h : Resembles octets around n m) : m.isKeyword = n.isKeyword := by
  rcases h.head with hhead | ⟨hn, hm, -⟩
  · rw [isKeyword_eq, isKeyword_eq, hhead]
  · rw [hn, hm]

theorem head_of_isKeyword (h : Resembles octets around n m) (hn : n.isKeyword = true) :
    m.head = n.head := by
  rcases h.head with hhead | ⟨hno, -, -⟩
  · exact hhead
  · rw [hn] at hno
    cases hno

/-- A node in grouping parentheses resembles the node, unless it is a keyword or fixed. -/
theorem of_groups (octets : List UInt8) (h : Groups around n m) : Resembles octets around n m := by
  obtain ⟨hd, opening, closing, role, rfl⟩ := h.grouped
  have hfixed := h.fixed
  simp only [isFixed, Bool.or_eq_false_iff] at hfixed
  obtain ⟨⟨⟨⟨hlist, -⟩, hlisted⟩, hpattern⟩, -⟩ := hfixed
  have hseen : seen (n.grouped hd opening closing role) = seen (n.inRole role) :=
    seen_grouped hd opening closing role h.named
  refine ⟨h.named.symm, rfl, .inr ⟨h.keyword, ?_, h.fixed⟩, ?_, ?_, ?_, ?_, ?_⟩
  · have hkind : (n.grouped hd opening closing role).head.kind =
        Text.ofString "parenthesized_expression" := rfl
    rw [isKeyword_eq, hkind]
    decide +kernel
  · rw [hseen, seen_inRole]
    split
    · rfl
    · rename_i hn
      rw [seen_of_not_isGrouping (by simpa using hn)]
      rfl
  · rw [viewSeen_eq, viewSeen_eq, hseen, seen_inRole]
    split
    · exact .refl _
    · rename_i hn
      rw [seen_of_not_isGrouping (by simpa using hn), view_inRole]
      exact .refl _
  · simp [hlist]
  · simp [hlisted]
  · simp [hlisted, hpattern]

end Resembles

/-! ### Children -/

/-- Several nodes resemble others one by one, apart from comments among the others. -/
inductive ResembleAll (octets : List UInt8) (around : List ConcreteNode) :
    List ConcreteNode → List ConcreteNode → Prop
  | nil : ResembleAll octets around [] []
  | cons {c d cs ds} : Resembles octets around c d → ResembleAll octets around cs ds →
    ResembleAll octets around (c :: cs) (d :: ds)
  | comment {d cs ds} : IsComment d → ResembleAll octets around cs ds →
    ResembleAll octets around cs (d :: ds)

namespace ResembleAll

section Lists

variable {octets : List UInt8} {around cs ds : List ConcreteNode}

theorem refl (octets : List UInt8) (around cs : List ConcreteNode) :
    ResembleAll octets around cs cs := by
  induction cs with
  | nil => exact .nil
  | cons c cs ih => exact .cons (.refl _ _ c) ih

/-- Nodes that resemble each other may stand between the same nodes. -/
theorem replaced (before after : List ConcreteNode) {c d : ConcreteNode}
    (h : Resembles octets around c d) :
    ResembleAll octets around (before ++ c :: after) (before ++ d :: after) := by
  induction before with
  | nil => exact .cons h (.refl _ _ after)
  | cons a before ih => exact .cons (.refl _ _ a) ih

theorem put (before after : List ConcreteNode) {c : ConcreteNode} (h : IsComment c) :
    ResembleAll octets around (before ++ after) (before ++ c :: after) := by
  induction before with
  | nil => exact .comment h (.refl _ _ after)
  | cons a before ih => exact .cons (.refl _ _ a) ih

theorem agreeAll (h : ResembleAll octets around cs ds) :
    AgreeAll (viewAll octets cs) (viewAll octets ds) := by
  induction h with
  | nil => exact .nil
  | cons hcd _ ih => exact .cons hcd.agree ih
  | comment hd _ ih => exact .idle (hd.idle octets) ih

section Chosen

variable {α : Type} {p : ConcreteNode → Bool} {g : ConcreteNode → α}
  (hp : ∀ c d, Resembles octets around c d → p d = p c) (hcomment : ∀ c, IsComment c → p c = false)
  (hg : ∀ c d, Resembles octets around c d → p c = true → g d = g c)

include hp hcomment hg

/-- What is learnt from some of the nodes is the same, if comments are left out. -/
theorem map_filter (h : ResembleAll octets around cs ds) :
    (ds.filter p).map g = (cs.filter p).map g := by
  induction h with
  | nil => rfl
  | @cons c d cs ds hcd _ ih =>
    by_cases hc : p c = true
    · rw [List.filter_cons_of_pos hc, List.filter_cons_of_pos ((hp c d hcd).trans hc),
        List.map_cons, List.map_cons, hg c d hcd hc, ih]
    · have hd : ¬ p d = true := by rwa [hp c d hcd]
      rw [List.filter_cons_of_neg hc, List.filter_cons_of_neg hd, ih]
  | comment hd _ ih => rw [List.filter_cons_of_neg (by simp [hcomment _ hd]), ih]

/-- What is learnt from the first such node is the same. -/
theorem map_find? (h : ResembleAll octets around cs ds) :
    (ds.find? p).map g = (cs.find? p).map g := by
  rw [← List.head?_filter, ← List.head?_filter, ← List.head?_map, ← List.head?_map,
    h.map_filter hp hcomment hg]

end Chosen

/-- Comments add to the nodes that are named. -/
theorem length_filter_named_le (h : ResembleAll octets around cs ds) :
    (cs.filter (·.head.named)).length ≤ (ds.filter (·.head.named)).length := by
  induction h with
  | nil => exact Nat.le_refl _
  | @cons c d _ _ hcd _ ih =>
    rw [List.filter_cons, List.filter_cons, hcd.named]
    split
    · exact Nat.succ_le_succ ih
    · exact ih
  | comment hd _ ih =>
    rw [List.filter_cons, if_pos hd.named]
    exact Nat.le_succ_of_le ih

/-- If one node is named on both sides, these resemble each other. -/
theorem exists_seenFirst_eq (h : ResembleAll octets around cs ds) (outer outer' : ConcreteNode)
    (hcs : (cs.filter (·.head.named)).length = 1) (hds : (ds.filter (·.head.named)).length = 1) :
    ∃ c d, Resembles octets around c d ∧ seenFirst outer cs = seen c ∧
      seenFirst outer' ds = seen d := by
  induction h with
  | nil => simp at hcs
  | @cons c d _ _ hcd _ ih =>
    by_cases hc : c.head.named = true
    · have hd : d.head.named = true := hcd.named.trans hc
      exact ⟨c, d, hcd, by rw [seenFirst, if_pos hc], by rw [seenFirst, if_pos hd]⟩
    · have hd : ¬ d.head.named = true := by rwa [hcd.named]
      rw [seenFirst, seenFirst, if_neg hc, if_neg hd]
      exact ih (by simpa [hc] using hcs) (by simpa [hd] using hds)
  | @comment d _ ds hd h _ =>
    have hle := h.length_filter_named_le
    rw [List.filter_cons, if_pos hd.named, List.length_cons] at hds
    omega

end Lists

/-! ### Nodes with children that resemble each other -/

section Nodes

variable {octets : List UInt8} {around cs ds : List ConcreteNode} {h : ConcreteHead}
  (hcs : ResembleAll octets (node h cs :: around) cs ds)

include hcs

/-- What is learnt from the child in a role is the same. -/
theorem map_child? {α : Type} {g : ConcreteNode → α} (field : Text)
    (hg : ∀ c d, Resembles octets (node h cs :: around) c d → c.head.field = some field →
      g d = g c) :
    ((node h ds).child? field).map g = ((node h cs).child? field).map g := by
  refine hcs.map_find? (fun c d hcd ↦ ?_) (fun c hc ↦ ?_) fun c d hcd hc ↦ ?_
  · rw [hcd.field]
  · simp [hc.field]
  · exact hg c d hcd (by simpa using hc)

theorem keyword_eq : (node h ds).keyword = (node h cs).keyword := by
  refine hcs.map_find? (fun c d hcd ↦ hcd.isKeyword) (fun c hc ↦ hc.isKeyword) fun c d hcd hc ↦ ?_
  rw [hcd.head_of_isKeyword hc]

theorem roles_eq : (node h ds).roles octets = (node h cs).roles octets := by
  have hplaying (role : Text) : ((node h ds).playing? role).map (part octets) =
      ((node h cs).playing? role).map (part octets) := by
    rw [playing?, playing?, role?, role?, Option.map_map, Option.map_map]
    exact hcs.map_child? _ fun c d hcd _ ↦ hcd.part
  simp only [roles, hplaying]

/-- A function has the same parameters. -/
theorem map_text_parameters_eq (hfunction : (node h cs).nodeKind.isFunction = true) :
    (node h ds).parameters.map (text octets) = (node h cs).parameters.map (text octets) := by
  have hlist := hcs.map_child? (g := bindings octets) (Text.ofString "parameters")
    fun c d hcd hc ↦ hcd.bindings (by simp [isParameterList, hc, hfunction])
  rw [map_text_parameters, map_text_parameters, hlist]
  cases hnone : (node h cs).child? (Text.ofString "parameters") with
  | some ps => rfl
  | none =>
    have hlone := hcs.map_child? (g := text octets) (Text.ofString "parameter")
      fun c d hcd hc ↦ hcd.text_of_isFixed (by
        simp [isFixed, isLoneParameter, hc, hfunction, hnone])
    rw [hlone]

/-- A node tells the same of itself. -/
theorem viewHead_agrees :
    (viewHead octets (node h cs)).Agrees (viewHead octets (node h ds)) where
  kind := rfl
  span := rfl
  keyword := hcs.keyword_eq
  roles := hcs.roles_eq
  parameters := hcs.map_text_parameters_eq

theorem agree_view : Agree ((node h cs).view octets) ((node h ds).view octets) := by
  rw [view, view]
  exact .node hcs.viewHead_agrees hcs.agreeAll

/-- A parameter list binds the same. -/
theorem bindings_eq (hlist : isParameterList (node h cs :: around) = true) :
    (node h ds).bindings octets = (node h cs).bindings octets := by
  have hlisted (c : ConcreteNode) (hc : c.head.named = true) :
      isListed (c :: node h cs :: around) = true := by simp [isListed, hc, hlist]
  rw [bindings, bindings, namedChildren, namedChildren, List.filter_filter, List.filter_filter]
  refine hcs.map_filter (fun c d hcd ↦ ?_) (fun c hc ↦ by simp [isA, hc.kind]) fun c d hcd hc ↦ ?_
  · by_cases hc : c.head.named = true
    · have hhead := hcd.head_of_isFixed (by simp [isFixed, hlisted c hc])
      simp only [isA, hhead]
    · simp [hcd.named, hc]
  · rw [Bool.and_eq_true] at hc
    exact hcd.binding (hlisted c hc.2)

/-- A pattern of a parameter has the same target. -/
theorem text_target_eq (hplace : isListed (node h cs :: around) = true ∨
    isPattern (node h cs :: around) = true) :
    (node h ds).target.text octets = (node h cs).target.text octets := by
  have hsame : (node h ds).text octets = (node h cs).text octets := rfl
  by_cases hn : (node h cs).isA "assignment_pattern" = true
  · have hleft := hcs.map_child? (g := text octets) (Text.ofString "left")
      fun c d hcd hc ↦ hcd.text_of_isFixed (by
        rcases hplace with hplace | hplace <;> simp [isFixed, isDefaulted, hc, hn, hplace])
    have hm : (node h ds).isA "assignment_pattern" = true := hn
    rw [text_target, text_target, if_pos hn, if_pos hm, hleft, hsame]
  · have hm : ¬ (node h ds).isA "assignment_pattern" = true := hn
    rw [text_target, text_target, if_neg hn, if_neg hm, hsame]

/-- A parameter binds the same. -/
theorem text_binding_eq (hlisted : isListed (node h cs :: around) = true) :
    (node h ds).binding.text octets = (node h cs).binding.text octets := by
  have htarget := hcs.text_target_eq (.inl hlisted)
  by_cases hn : (node h cs).isParameter = true
  · have hpattern := hcs.map_child? (g := fun p ↦ p.target.text octets) (Text.ofString "pattern")
      fun c d hcd hc ↦ hcd.target (.inr (by simp [isPattern, hc, hn, hlisted]))
    have hm : (node h ds).isParameter = true := hn
    rw [text_binding, text_binding, if_pos hn, if_pos hm, hpattern, htarget]
  · have hm : ¬ (node h ds).isParameter = true := hn
    rw [text_binding, text_binding, if_neg hn, if_neg hm, htarget]

/-- What is seen through both nodes, or stands in both places, is told the same of. -/
theorem seen_agrees (hgrouping : (node h ds).isGrouping = (node h cs).isGrouping) :
    part octets (seen (node h ds)) = part octets (seen (node h cs)) ∧
      Agree (viewSeen octets (node h cs)) (viewSeen octets (node h ds)) := by
  by_cases hn : (node h cs).isGrouping = true
  · have hm : (node h ds).isGrouping = true := hgrouping.trans hn
    have hone : (cs.filter (·.head.named)).length = 1 := by
      rw [isGrouping, Bool.and_eq_true, beq_iff_eq] at hn
      exact hn.2
    have hone' : (ds.filter (·.head.named)).length = 1 := by
      rw [isGrouping, Bool.and_eq_true, beq_iff_eq] at hm
      exact hm.2
    obtain ⟨c, d, hcd, hc, hd⟩ := hcs.exists_seenFirst_eq (node h cs) (node h ds) hone hone'
    have hagree := hcd.agree
    rw [viewSeen_eq, viewSeen_eq] at hagree ⊢
    rw [seen, seen, if_pos hn, if_pos hm, hc, hd]
    exact ⟨hcd.part, hagree⟩
  · have hm : (node h ds).isGrouping = false := by simpa [hgrouping] using hn
    rw [viewSeen_eq, viewSeen_eq, seen_of_not_isGrouping hm,
      seen_of_not_isGrouping (by simpa using hn)]
    exact ⟨rfl, hcs.agree_view⟩

/-- The nodes resemble each other, if both or neither of them is a grouping. -/
theorem resembles (hgrouping : (node h ds).isGrouping = (node h cs).isGrouping) :
    Resembles octets around (node h cs) (node h ds) where
  named := rfl
  field := rfl
  head := .inl rfl
  part := (hcs.seen_agrees hgrouping).1
  agree := (hcs.seen_agrees hgrouping).2
  bindings := hcs.bindings_eq
  binding := hcs.text_binding_eq
  target := hcs.text_target_eq

end Nodes

end ResembleAll

end CodeAtlas.Syntax.ConcreteNode
