import CodeAtlas.Proofs.Inventory.Identifier
import CodeAtlas.Proofs.Text.Points

/-!
# Invariants of inventories

What every node preserves, a whole tree preserves: if a node takes good contexts to good contexts and
declares and calls nothing but good things in them, then all that is found in a tree of such nodes is
good (`Findings.Preserved.ofTree`). From what is found it goes over to the inventory, whose entities are the
declarations with numbers and whose calls are those found. Main statements:
`exists_findings_of_preserved`, and `preserved_oneLine`, parameters stand on one line.
-/

namespace CodeAtlas

open Syntax

theorem Syntax.AbstractNode.head_mem_heads (n : AbstractNode) : n.head ∈ n.heads := by
  cases n with
  | node h cs =>
    rw [heads]
    exact List.mem_cons_self

namespace Inventory

namespace Findings

/-- The ways in which a node declares something. -/
inductive Declares (c : Context) (h : NodeHead) (cs : List AbstractNode) : Declaration → Prop where
  | function : Declares c h cs
      ⟨.functionKind, functionName c h, h.span, h.parameters.map Text.collapse, none, c.scope⟩
  | classDeclaration : Declares c h cs
      ⟨.classKind, Draft.declaredName h, h.span, [], none, c.scope⟩
  | declarator {n : AbstractNode} {name : Text} (hn : n ∈ cs)
      (hname : Draft.declared? n.head = some name) : Declares c h cs
      ⟨.variableKind, name, n.head.span, [], h.keyword, c.scope⟩
  | loop {keyword name : Text} {target : Part} (hkeyword : h.keyword = some keyword)
      (htarget : h.roles.target = some target) (hname : target.identifier? = some name) :
      Declares c h cs ⟨.variableKind, name, target.span, [], some keyword, c.scope⟩
  | imported {source : Part} (hsource : h.roles.source = some source) : Declares c h cs
      ⟨.importKind, source.text.trimWhere Draft.isQuote, h.span, [], none, c.scope⟩

/-- A node declares in no other way. -/
theorem declares_of_mem_declarationsOf {c : Context} {h : NodeHead} {cs : List AbstractNode}
    {d : Declaration} (hd : d ∈ declarationsOf c h cs) : Declares c h cs d := by
  unfold declarationsOf at hd
  cases hk : h.kind with
  | functionDeclaration | functionLiteral =>
    rw [hk] at hd
    rw [List.mem_singleton.1 hd]
    exact .function
  | classDeclaration =>
    rw [hk] at hd
    rw [List.mem_singleton.1 hd]
    exact .classDeclaration
  | variableDeclaration =>
    rw [hk] at hd
    obtain ⟨n, hn, hsome⟩ := List.mem_filterMap.1 hd
    unfold declarator? at hsome
    split at hsome
    · obtain ⟨name, hname, rfl⟩ := Option.map_eq_some_iff.1 hsome
      exact .declarator hn hname
    · cases hsome
  | loopDeclaration =>
    rw [hk] at hd
    obtain ⟨keyword, hkeyword, hd⟩ := Option.bind_eq_some_iff.1 (Option.mem_toList.1 hd)
    obtain ⟨target, htarget, hd⟩ := Option.bind_eq_some_iff.1 hd
    obtain ⟨name, hname, hd⟩ := Option.bind_eq_some_iff.1 hd
    cases hd
    exact .loop hkeyword htarget hname
  | importDeclaration =>
    rw [hk] at hd
    obtain ⟨source, hsource, hd⟩ := Option.bind_eq_some_iff.1 (Option.mem_toList.1 hd)
    split at hd
    · cases hd
      exact .imported hsource
    · cases hd
  | variableDeclarator | call | identifier | string | other =>
    rw [hk] at hd
    cases hd

/-- What a node preserves: the contexts that it hands down, what it declares and what it calls. -/
structure Preserved (C : Context → Prop) (H : NodeHead → Prop) (D : Declaration → Prop)
    (K : Text × Text → Prop) : Prop where
  inherited {c : Context} {scopes : Nat} {h : NodeHead} : C c → H h → C (inherited c scopes h)
  declared {c : Context} {h : NodeHead} {cs : List AbstractNode} : C c → H h →
    (∀ n ∈ cs, H n.head) → ∀ d, Declares c h cs d → D d
  called {c : Context} {h : NodeHead} : C c → H h → ∀ k ∈ call? c h, K k

/-- What is found is good. -/
def Satisfies (D : Declaration → Prop) (K : Text × Text → Prop) (f : Findings) : Prop :=
  (∀ d ∈ f.declarations, D d) ∧ ∀ k ∈ f.calls, K k

namespace Satisfies

variable {D : Declaration → Prop} {K : Text × Text → Prop} {f g : Findings}

theorem empty : Findings.empty.Satisfies D K := by simp [Satisfies, Findings.empty]

theorem append (hf : f.Satisfies D K) (hg : g.Satisfies D K) : (f ++ g).Satisfies D K := by
  refine ⟨?_, ?_⟩
  · rw [declarations_append, List.forall_mem_append]
    exact ⟨hf.1, hg.1⟩
  · rw [calls_append, List.forall_mem_append]
    exact ⟨hf.2, hg.2⟩

/-- Entities are declarations with numbers. -/
theorem entities (hf : f.Satisfies D K) : ∀ e ∈ f.entities, ∃ d i, D d ∧ e = d.entity i := by
  intro e he
  obtain ⟨i, hi, rfl⟩ := List.getElem_of_mem he
  obtain ⟨d, hd, heq⟩ := f.exists_getElem_entities i hi
  exact ⟨d, i, hf.1 d hd, heq⟩

end Satisfies

namespace Preserved

variable {C : Context → Prop} {H : NodeHead → Prop} {D : Declaration → Prop}
  {K : Text × Text → Prop}

theorem ofNode (hp : Preserved C H D K) {c : Context} {h : NodeHead} {cs : List AbstractNode}
    (hc : C c) (hh : H h) (hcs : ∀ n ∈ cs, H n.head) : (ofNode c h cs).Satisfies D K := by
  refine ⟨fun d hd ↦ hp.declared hc hh hcs d (declares_of_mem_declarationsOf hd), ?_⟩
  intro k hk
  unfold Findings.ofNode at hk
  split at hk
  · exact hp.called hc hh k (Option.mem_toList.1 hk)
  · cases hk

mutual

/-- What every node of a tree preserves, the tree preserves. -/
theorem ofTree (hp : Preserved C H D K) {c : Context} (scopes : Nat) (hc : C c) :
    ∀ n : AbstractNode, (∀ h ∈ n.heads, H h) → (ofTree c scopes n).Satisfies D K
  | .node h cs, hn => by
    rw [AbstractNode.heads, List.forall_mem_cons] at hn
    have hcs : ∀ n ∈ cs, H n.head := by
      intro n hmem
      refine hn.2 _ ?_
      rw [AbstractNode.headsOfAll_eq_flatMap]
      exact List.mem_flatMap.2 ⟨n, hmem, n.head_mem_heads⟩
    rw [Findings.ofTree]
    exact (hp.ofNode hc hn.1 hcs).append (ofTrees hp _ (hp.inherited hc hn.1) cs hn.2)

/-- What every node of several trees preserves, the trees preserve. -/
theorem ofTrees (hp : Preserved C H D K) {c : Context} (scopes : Nat) (hc : C c) :
    ∀ ns : List AbstractNode, (∀ h ∈ AbstractNode.headsOfAll ns, H h) →
      (ofTrees c scopes ns).Satisfies D K
  | [], _ => by
    rw [Findings.ofTrees]
    exact .empty
  | n :: ns, hns => by
    rw [AbstractNode.headsOfAll, List.forall_mem_append] at hns
    rw [Findings.ofTrees]
    exact (ofTree hp scopes hc n hns.1).append (ofTrees hp _ hc ns hns.2)

end

end Preserved

end Findings

variable {C : Context → Prop} {H : NodeHead → Prop} {D : Declaration → Prop}
  {K : Text × Text → Prop}

/-- The inventory of a tree is that of good findings if its nodes preserve what is good. -/
theorem exists_findings_of_preserved (hp : Findings.Preserved C H D K) (hc : C .root)
    (root : AbstractNode) (h : ∀ head ∈ root.heads, H head) :
    ∃ f : Findings, f.Satisfies D K ∧ ofTree root = f.inventory := by
  refine ⟨Findings.ofTree .root 0 root, hp.ofTree 0 hc root h, ?_⟩
  rw [ofTree_eq_visitTree, Findings.inventory_visitTree]

/-- Parameters stand on one line, whatever their texts in the tree are. -/
theorem preserved_oneLine : Findings.Preserved (fun _ ↦ True) (fun _ ↦ True)
    (fun d ↦ ∀ p ∈ d.parameters, CodePoint.lineFeed ∉ p) fun _ ↦ True where
  inherited _ _ := trivial
  declared {c h cs} _ _ _ d hd p hp := by
    cases hd with
    | function =>
      obtain ⟨t, -, rfl⟩ := List.mem_map.1 hp
      exact Text.lineFeed_notMem_collapse t
    | classDeclaration | declarator | loop | imported => cases hp
  called _ _ _ _ := trivial

end Inventory

end CodeAtlas
