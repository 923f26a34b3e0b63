import CodeAtlas.Proofs.Inventory.Declarations
import CodeAtlas.Proofs.Inventory.WellFormed
import Mathlib.Data.List.DropRight

/-!
# Imports

Every node that imports from a literal gives one import, in document order. It is named by the literal
without the quotation marks at its two ends, as many of them as there are (`Text.Trimmed`): this is what
stands between two marks unless it begins or ends with a mark of any kind itself. Main statements:
`forall₂_literals_imports` and, for a name that loses marks of its own, `name_ofTree_view_quoted`.
-/

namespace CodeAtlas

open Syntax

namespace Text

/-- A text without the code points of one kind at its two ends. -/
structure Trimmed (p : CodePoint → Bool) (t u : Text) : Prop where
  exists_eq : ∃ before after, t = before ++ u ++ after ∧ ∀ c ∈ before ++ after, p c = true
  head : ∀ c, u.head? = some c → p c = false
  last : ∀ c, u.getLast? = some c → p c = false

variable {p : CodePoint → Bool} {t u : Text}

theorem trimmed_trimWhere (p : CodePoint → Bool) (t : Text) : Trimmed p t (trimWhere p t) := by
  have htrim : trimWhere p t = (t.dropWhile p).rdropWhile p := rfl
  rw [htrim]
  refine ⟨⟨t.takeWhile p, (t.dropWhile p).rtakeWhile p, ?_, ?_⟩, fun c hc ↦ ?_, fun c hc ↦ ?_⟩
  · rw [List.append_assoc, List.rdropWhile_append_rtakeWhile, List.takeWhile_append_dropWhile]
  · intro c hc
    rcases List.mem_append.1 hc with hc | hc
    · exact List.mem_takeWhile_imp hc
    · exact List.mem_rtakeWhile_imp hc
  · obtain ⟨rest, hrest⟩ := List.rdropWhile_prefix p (l := t.dropWhile p)
    have hne : (t.dropWhile p).rdropWhile p ≠ [] := fun hnil ↦ by simp [hnil] at hc
    have hstart : (t.dropWhile p).head? = some c := by
      rw [← hrest, List.head?_append_of_ne_nil _ hne]
      exact hc
    have hnot := List.head?_dropWhile_not p t
    rwa [hstart] at hnot
  · obtain ⟨hne, rfl⟩ := List.mem_getLast?_eq_getLast hc
    exact Bool.eq_false_iff.2 (List.rdropWhile_last_not p _ hne)

/-- There is only one such text. -/
theorem Trimmed.eq_trimWhere (h : Trimmed p t u) : u = trimWhere p t := by
  obtain ⟨before, after, rfl, hmarks⟩ := h.exists_eq
  rw [List.forall_mem_append] at hmarks
  have hnone (v : Text) (hv : ∀ c, v.head? = some c → p c = false) : v.dropWhile p = v := by
    cases v with
    | nil => rfl
    | cons c v => exact List.dropWhile_cons_of_neg (by simp [hv c rfl])
  have hafter (c : CodePoint) (hc : c ∈ after.reverse) : p c = true :=
    hmarks.2 c (List.mem_reverse.1 hc)
  rw [trimWhere, List.append_assoc, List.dropWhile_append_of_pos hmarks.1]
  cases u with
  | nil =>
    have hnil : after.dropWhile p = [] := List.dropWhile_eq_nil_iff.2 hmarks.2
    simp [hnil]
  | cons c u =>
    have hstart : (c :: u ++ after).dropWhile p = c :: u ++ after :=
      hnone (c :: u ++ after) fun d hd ↦ h.head d hd
    rw [hstart, List.reverse_append, List.dropWhile_append_of_pos hafter,
      hnone _ fun d hd ↦ h.last d (by rwa [List.head?_reverse] at hd), List.reverse_reverse]

/-- One more code point of the kind on either side makes no difference. -/
theorem Trimmed.surround (h : Trimmed p t u) {c d : CodePoint} (hc : p c = true) (hd : p d = true) :
    Trimmed p (c :: (t ++ [d])) u := by
  obtain ⟨before, after, rfl, hmarks⟩ := h.exists_eq
  refine ⟨⟨c :: before, after ++ [d], by simp, ?_⟩, h.head, h.last⟩
  rw [List.forall_mem_append] at hmarks
  simpa [or_imp, forall_and, hc, hd] using hmarks

/-- A text that stands between two code points of the kind is what is left, if and only if there are no
more of them at its own ends. -/
theorem Trimmed.eq_iff {s : Text} {c d : CodePoint} (h : Trimmed p (c :: (s ++ [d])) u)
    (hc : p c = true) (hd : p d = true) :
    u = s ↔ ∀ x, s.head? = some x ∨ s.getLast? = some x → p x = false := by
  constructor
  · rintro rfl x (hx | hx)
    · exact h.head x hx
    · exact h.last x hx
  · intro hends
    have hself : Trimmed p s s :=
      ⟨⟨[], [], by simp, by simp⟩, fun x hx ↦ hends x (.inl hx), fun x hx ↦ hends x (.inr hx)⟩
    rw [h.eq_trimWhere]
    exact (hself.surround hc hd).eq_trimWhere.symm

end Text

namespace Inventory

open Draft (isQuote)

/-- The literal that a node imports from. -/
def literal? (h : NodeHead) : Option Text :=
  if h.kind = .importDeclaration then
    h.roles.source.bind fun source ↦ if source.kind = .string then some source.text else none
  else none

/-- The nodes that import from a literal, each with the literal, in document order. -/
def literals (root : AbstractNode) : List (NodeHead × Text) :=
  root.heads.filterMap fun h ↦ (literal? h).map fun literal ↦ (h, literal)

/-- An import by its name and its place. -/
structure Import where
  name : Text
  span : Span
  deriving DecidableEq

/-- What a node imports. -/
def Import.ofHead? (h : NodeHead) : Option Import :=
  (literal? h).map fun literal ↦ ⟨literal.trimWhere isQuote, h.span⟩

namespace Findings

/-- The imports among the declarations. -/
def imports (f : Findings) : List Import :=
  (f.declarations.filter (·.kind = .importKind)).map fun d ↦ ⟨d.name, d.span⟩

theorem imports_append (f g : Findings) : (f ++ g).imports = f.imports ++ g.imports := by
  simp [imports]

/-- A node imports for itself only. -/
theorem imports_ofNode (c : Context) (h : NodeHead) (cs : List AbstractNode) :
    (ofNode c h cs).imports = (Import.ofHead? h).toList := by
  by_cases hk : h.kind = .importDeclaration
  · have hdeclarations : (ofNode c h cs).declarations = (import? c.scope h).toList := by
      simp [ofNode, declarationsOf, hk]
    rw [imports, hdeclarations, import?, Import.ofHead?, literal?, if_pos hk]
    cases h.roles.source with
    | none => rfl
    | some source =>
      by_cases hstring : source.kind = .string
      · simp [hstring]
      · simp [hstring]
  · have hnone : Import.ofHead? h = none := by simp [Import.ofHead?, literal?, hk]
    rw [hnone, imports, List.filter_eq_nil_iff.2, List.map_nil, Option.toList_none]
    intro d hd heq
    have himport : d.kind = .importKind := of_decide_eq_true heq
    rcases kind_of_mem_declarationsOf hd with hvariable | ⟨-, hkind⟩ | hdeclares
    · simp [hvariable] at himport
    · exact hk hkind
    · rw [himport] at hdeclares
      cases hkind : h.kind <;> simp [hkind, NodeKind.declares?] at hdeclares

mutual

/-- The imports of a tree are those of its nodes in document order. -/
theorem imports_ofTree (c : Context) (scopes : Nat) :
    ∀ n, (ofTree c scopes n).imports = n.heads.filterMap Import.ofHead?
  | .node h cs => by
    rw [ofTree, imports_append, imports_ofNode, imports_ofTrees, AbstractNode.heads,
      List.filterMap_cons]
    cases Import.ofHead? h <;> rfl

/-- The imports of several trees are those of each, one tree after the other. -/
theorem imports_ofTrees (c : Context) (scopes : Nat) :
    ∀ ns, (ofTrees c scopes ns).imports = (AbstractNode.headsOfAll ns).filterMap Import.ofHead?
  | [] => rfl
  | n :: ns => by
    rw [ofTrees, imports_append, imports_ofTree, imports_ofTrees, AbstractNode.headsOfAll,
      List.filterMap_append]

end

/-- The imports of an inventory have the names and the places of those that were found. -/
theorem map_imports_inventory (f : Findings) :
    f.inventory.imports.map (fun e ↦ (e.name, e.span)) =
      f.imports.map fun m ↦ (m.name, some m.span) := by
  rw [inventory, imports, List.map_map]
  exact map_filter_entities (fun _ _ ↦ rfl) .importKind f

end Findings

/-- Every node that imports from a literal gives one import, in document order, and there are no others.
The name of the import is the literal without the quotation marks of any kind at its ends. Of a literal
that consists of a text between two marks, the name is the text exactly if the text neither begins nor
ends with a mark itself, of the same kind or of another. -/
theorem forall₂_literals_imports (root : AbstractNode) :
    (∀ e ∈ (ofTree root).imports, e.kind = .importKind) ∧
      List.Forall₂
        (fun p e ↦ e.span = some p.1.span ∧ Text.Trimmed isQuote p.2 e.name ∧
          ∀ q s, isQuote q = true → p.2 = q :: (s ++ [q]) →
            (e.name = s ↔ ∀ c, s.head? = some c ∨ s.getLast? = some c → isQuote c = false))
        (literals root) (ofTree root).imports := by
  have hnames : (literals root).map (fun p ↦ (p.2.trimWhere isQuote, some p.1.span)) =
      (ofTree root).imports.map fun e ↦ (e.name, e.span) := by
    rw [ofTree_eq_visitTree, Findings.inventory_visitTree, Findings.map_imports_inventory,
      Findings.imports_ofTree, List.map_filterMap, literals, List.map_filterMap]
    simp only [Import.ofHead?, Option.map_map, Function.comp_def]
  rw [← List.forall₂_eq_eq_eq, List.forall₂_map_left_iff, List.forall₂_map_right_iff] at hnames
  refine ⟨(wellFormed_ofTree root).imports, hnames.imp ?_⟩
  rintro ⟨h, literal⟩ e heq
  obtain ⟨hname, hspan⟩ := Prod.mk.inj heq
  have htrimmed : Text.Trimmed isQuote literal e.name := by
    rw [← hname]
    exact Text.trimmed_trimWhere isQuote literal
  refine ⟨hspan.symm, htrimmed, ?_⟩
  rintro q s hq rfl
  exact htrimmed.eq_iff hq hq

open ConcreteNode in
/-- The literal of an import stands between two quotation marks, and there are none of that kind in it.
It has apostrophes at its own ends, and they are lost. -/
theorem name_ofTree_view_quoted :
    let octets := Utf8.encode (Text.ofString "import x from \"'a'\";")
    let mark : CodePoint := ⟨0x22, by decide⟩
    let content := Text.ofString "'a'"
    let source := branch "string" 14 19 (some "source") [
      token "\"" 14 15, branch "string_fragment" 15 18 none [], token "\"" 18 19]
    let root := branch "program" 0 20 none [
      branch "import_statement" 0 20 none [
        token "import" 0 6,
        branch "import_clause" 7 8 none [branch "identifier" 7 8 none []],
        token "from" 9 13, source, token ";" 19 20]]
    isQuote mark = true ∧ mark ∉ content ∧
      (literals (root.view octets)).map (·.2) = [mark :: (content ++ [mark])] ∧
      (ofTree (root.view octets)).imports.map (·.name) = [Text.ofString "a"] ∧
      Text.ofString "a" ≠ content := by
  intro octets mark content source root
  have hname : (ofTree (root.view octets)).imports.map (·.name) = [Text.ofString "a"] := by
    rw [ofTree_eq_visitTree, Findings.inventory_visitTree]
    decide +kernel
  exact ⟨by decide, by decide, by decide +kernel, hname, by decide⟩

end Inventory

end CodeAtlas
