import CodeAtlas.Grammar.Tsx
import CodeAtlas.Parsing.Outline
import CodeAtlas.Proofs.Cache.Entries
import CodeAtlas.Proofs.Syntax.Nodes
import CodeAtlas.Service.Session
import Mathlib.Data.List.Forall2
import Mathlib.Data.Set.Function

/-!
# Transparent caches

A cache changes no answer, except for the mark that says where the answer came from. The invariant is
`Faithful`: every entry is the inventory that a text of the session has on its own, under the digest of
that text. What is found for a text is then its own inventory, provided that no other text of the
session has the same digest. Main statement: `run_transparent`.
-/

namespace CodeAtlas

/-! ### Answers without their mark -/

/-- An analysis without the mark that a cache leaves on it. -/
def Analysis.unmarked (a : Analysis) : Analysis := { a with cached := false }

/-- An outcome without the mark that a cache leaves on it. -/
def Outcome.unmarked (o : Outcome) : Outcome :=
  { o with response := { o.response with cached := false } }

/-- An analysis without a cache bears no mark. -/
theorem unmarked_analyzeFresh (s : Stages) (source : Text) :
    (analyzeFresh s source).map Analysis.unmarked = analyzeFresh s source := by
  unfold analyzeFresh
  split
  · rfl
  · next root _ => cases extract s source root <;> rfl

/-- The mark of an analysis is passed on and does not matter otherwise. -/
theorem map_unmarked_respond (s : Stages) (room : Int) (a : Analysis) :
    (respond s room a).map Outcome.unmarked = respond s room a.unmarked := by
  obtain ⟨digest, inventory, diagnostics, cached⟩ := a
  cases inventory with
  | none => rfl
  | some i =>
    simp only [respond, Analysis.unmarked]
    cases show? s room i <;> rfl

/-- An analysis without a cache depends on what the parser makes of its source. -/
theorem analyzeFresh_congr {s t : Stages} {source : Text} (hp : s.parser source = t.parser source)
    (he : s.extraction = t.extraction) : analyzeFresh s source = analyzeFresh t source := by
  simp only [analyzeFresh, parse, extract, hp, he]

/-- An inventory comes under the digest of its source, without diagnostics and without a mark. -/
theorem eq_of_analyzeFresh {s : Stages} {source : Text} {a : Analysis} {i : Inventory}
    (h : analyzeFresh s source = .ok a) (hi : a.inventory = some i) :
    a = ⟨Digest.ofText source, some i, [], false⟩ := by
  unfold analyzeFresh at h
  split at h
  · cases h
    cases hi
  · next root _ =>
    cases he : extract s source root with
    | error e =>
      rw [he] at h
      cases h
    | ok i' =>
      rw [he] at h
      cases h
      cases hi
      rfl

/-- The digest of octets that fill one block takes one compression. -/
theorem Digest.sha256_eq_of_length {octets : List UInt8} (h : (wordOf (pad octets)).length = 16) :
    sha256 octets = (compress .initial (wordOf (pad octets))).words.flatMap fun w ↦
      bigEndian 4 w.toNat := by
  have htake : (wordOf (pad octets)).take 16 = wordOf (pad octets) :=
    List.take_of_length_le (Nat.le_of_eq h)
  have hdrop : (wordOf (pad octets)).drop 16 = [] := List.drop_of_length_le (Nat.le_of_eq h)
  rw [sha256, compressAll, if_neg (by omega), htake, hdrop, compressAll, if_pos (by decide)]

/-- Two texts of one letter that have distinct digests. -/
theorem Digest.ofText_x_ne_ofText_y :
    ofText (Text.ofString "x") ≠ ofText (Text.ofString "y") := by
  rw [ofText, ofText, sha256_eq_of_length (by decide +kernel),
    sha256_eq_of_length (by decide +kernel)]
  decide +kernel

namespace Session

/-! ### Steps on their own -/

/-- The text that a step takes. -/
def Step.source? : Step → Option Text
  | .visualize _ r => some r.source
  | .analyze _ source _ => some source
  | .stats => none
  | .clear => none

/-- The answer to a step that has no cache. A step that is about the cache has none. -/
def Step.alone? : Step → Option Answer
  | .visualize s r => some (.visualized (CodeAtlas.visualize s r none).1)
  | .analyze s source _ => some (.analyzed (CodeAtlas.analyze s source none).1)
  | .stats => none
  | .clear => none

/-- An answer without the mark that a cache leaves on it. -/
def Answer.unmarked : Answer → Answer
  | .visualized result => .visualized (result.map Outcome.unmarked)
  | .analyzed result => .analyzed (result.map Analysis.unmarked)
  | a => a

/-- An answer is, up to its mark, the one that the step has without a cache. -/
def Step.Allows (s : Step) (a : Answer) : Prop := ∀ b ∈ s.alone?, a.unmarked = b

/-- The parser of some stages makes of a text what `p` makes of it, and the extraction does not
fail. -/
def Undisturbed (p : Parser) (s : Stages) (source : Text) : Prop :=
  s.parser source = p source ∧ s.extraction = none

/-- The mark of an answer; a step that fails and a step that is about the cache have none. -/
def Answer.cached? : Answer → Option Bool
  | .visualized (.ok o) => some o.response.cached
  | .analyzed (.ok a) => some a.cached
  | _ => none

/-- A step is undisturbed up to the visualization, which may fail. -/
def Step.RunsOn (p : Parser) : Step → Prop
  | .visualize s r => Undisturbed p s r.source
  | .analyze s source _ => Undisturbed p s source
  | .stats => True
  | .clear => True

/-- The texts of a session. -/
def sources (steps : List Step) : List Text := steps.filterMap Step.source?

/-- An undisturbed analysis without a cache is the one by the parser alone. -/
theorem Undisturbed.analyzeFresh_eq {p : Parser} {s : Stages} {source : Text}
    (h : Undisturbed p s source) : analyzeFresh s source = analyzeFresh ⟨p, none, none⟩ source :=
  analyzeFresh_congr h.1 h.2

/-! ### One step -/

/-- Every entry of a cache is the inventory that one of some texts has on its own, under the digest
of the text. -/
def Faithful (p : Parser) (texts : List Text) (c : Store) : Prop :=
  c.All fun digest i ↦ ∃ t ∈ texts, digest = Digest.ofText t ∧
    analyzeFresh ⟨p, none, none⟩ t = .ok ⟨digest, some i, [], false⟩

variable {p : Parser} {texts : List Text} {c : Store}

/-- What a lookup finds for a text is its own inventory. -/
theorem Faithful.analyzeFresh_eq_of_lookup (hc : Faithful p texts c)
    (hd : Set.InjOn Digest.ofText {t | t ∈ texts}) {source : Text} (hs : source ∈ texts)
    {i : Inventory} (h : (c.lookup (Digest.ofText source)).1 = some i) :
    analyzeFresh ⟨p, none, none⟩ source = .ok ⟨Digest.ofText source, some i, [], false⟩ := by
  obtain ⟨t, ht, hdigest, hfresh⟩ := Cache.All.of_lookup hc h
  have heq : source = t := hd hs ht hdigest
  rw [← heq] at hfresh
  exact hfresh

/-- A cache that keeps a fresh analysis stays faithful. -/
theorem Faithful.keep (hc : Faithful p texts c) {source : Text} (hs : source ∈ texts) :
    Faithful p texts (keep c (analyzeFresh ⟨p, none, none⟩ source)) := by
  cases hf : analyzeFresh ⟨p, none, none⟩ source with
  | error e => exact hc
  | ok a =>
    cases hi : a.inventory with
    | none =>
      obtain ⟨digest, inventory, diagnostics, cached⟩ := a
      cases hi
      exact hc
    | some i =>
      obtain rfl := eq_of_analyzeFresh hf hi
      exact Cache.All.insert hc ⟨source, hs, rfl, hf⟩

/-- An analysis has, up to its mark, the result that it has without a cache, and leaves a faithful
cache behind. -/
theorem Faithful.analyze (hc : Faithful p texts c) (hd : Set.InjOn Digest.ofText {t | t ∈ texts})
    {s : Stages} {source : Text} (hp : Undisturbed p s source) (hs : source ∈ texts) :
    (analyze s source (some c)).1.map Analysis.unmarked = analyzeFresh s source ∧
      ∃ c', (analyze s source (some c)).2 = some c' ∧ Faithful p texts c' := by
  have hkept := Cache.All.lookup hc (Digest.ofText source)
  simp only [CodeAtlas.analyze]
  split
  · next i c' h =>
    rw [h] at hkept
    refine ⟨?_, c', rfl, hkept⟩
    rw [hp.analyzeFresh_eq, hc.analyzeFresh_eq_of_lookup hd hs (congrArg Prod.fst h)]
    rfl
  · next c' h =>
    rw [h] at hkept
    refine ⟨unmarked_analyzeFresh s source, _, rfl, ?_⟩
    rw [hp.analyzeFresh_eq]
    exact Faithful.keep hkept hs

/-- A request has, up to the mark, the result that it has without a cache, and leaves a faithful
cache behind. -/
theorem Faithful.visualize (hc : Faithful p texts c) (hd : Set.InjOn Digest.ofText {t | t ∈ texts})
    {s : Stages} {r : Request} (hp : Undisturbed p s r.source) (hs : r.source ∈ texts) :
    (visualize s r (some c)).1.map Outcome.unmarked = (visualize s r none).1 ∧
      ∃ c', (visualize s r (some c)).2 = some c' ∧ Faithful p texts c' := by
  cases hr : r.rejection? with
  | some rejection =>
    rw [visualize_eq_rejected hr, visualize_eq_rejected hr]
    exact ⟨rfl, c, rfl, hc⟩
  | none =>
    obtain ⟨hresult, hkept⟩ := hc.analyze hd hp hs
    simp only [CodeAtlas.visualize, hr]
    refine ⟨?_, hkept⟩
    change _ = (analyzeFresh s r.source).bind (respond s r.room)
    rw [← hresult]
    cases (CodeAtlas.analyze s r.source (some c)).1 with
    | error e => rfl
    | ok a => exact map_unmarked_respond s r.room a

/-- A step has an answer that it allows, and leaves a faithful cache behind. -/
theorem Faithful.step (hc : Faithful p texts c) (hd : Set.InjOn Digest.ofText {t | t ∈ texts})
    {s : Step} (hp : s.RunsOn p) (hs : ∀ t ∈ s.source?, t ∈ texts) :
    s.Allows (step c s).1 ∧ Faithful p texts (step c s).2 := by
  cases s with
  | visualize s r =>
    obtain ⟨hresult, c', hc', hkept⟩ := hc.visualize hd hp (hs _ rfl)
    refine ⟨?_, ?_⟩
    · rintro _ ⟨⟩
      exact congrArg Answer.visualized hresult
    · simp only [Session.step, hc']
      exact hkept
  | analyze s source language =>
    obtain ⟨hresult, c', hc', hkept⟩ := hc.analyze hd hp (hs _ rfl)
    refine ⟨?_, ?_⟩
    · rintro _ ⟨⟩
      exact congrArg Answer.analyzed hresult
    · simp only [Session.step, hc']
      exact hkept
  | stats =>
    refine ⟨?_, hc⟩
    rintro _ ⟨⟩
  | clear =>
    refine ⟨?_, Cache.all_clear c⟩
    rintro _ ⟨⟩

/-! ### Whole sessions -/

/-- Every step of a session that starts with a faithful cache has an answer that it allows. -/
theorem Faithful.run (hd : Set.InjOn Digest.ofText {t | t ∈ texts}) {steps : List Step}
    (hp : ∀ s ∈ steps, s.RunsOn p) (hs : ∀ s ∈ steps, ∀ t ∈ s.source?, t ∈ texts)
    (hc : Faithful p texts c) : List.Forall₂ Step.Allows steps (run c steps) := by
  induction steps generalizing c with
  | nil => exact .nil
  | cons s ss ih =>
    rw [List.forall_mem_cons] at hp hs
    obtain ⟨hallows, hkept⟩ := hc.step hd hp.1 hs.1
    exact .cons hallows (ih hp.2 hs.2 hkept)

/-- A cache of any capacity is transparent: every step of a session has the answer that it has without
a cache, except for the mark, provided that the parser makes the same of the same text at every step,
that no extraction is made to fail, and that no two texts of the session have the same digest. -/
theorem run_transparent {p : Parser} {capacity : Nat} (h : 0 < capacity) {steps : List Step}
    (hp : ∀ s ∈ steps, s.RunsOn p) (hd : Set.InjOn Digest.ofText {t | t ∈ sources steps}) :
    List.Forall₂ Step.Allows steps (run (Cache.empty capacity h) steps) := by
  refine Faithful.run hd hp ?_ (Cache.all_empty capacity h)
  intro s hs t ht
  exact List.mem_filterMap.2 ⟨s, hs, ht⟩

/-- A session in which two texts displace each other from a cache of one entry, with visualizations that
fail, a source that is refused, and a clearing between them. -/
def exchanging (p : Parser) (failure : Failure) (x y : Text) : List Step :=
  let javascript := Request.defaultLanguage
  let typescript := Text.ofString "typescript"
  [.visualize ⟨p, none, some failure⟩ ⟨x, javascript, 15, 100⟩,
    .analyze ⟨p, none, none⟩ x typescript,
    .visualize ⟨p, none, none⟩ ⟨x, typescript, -1, 2⟩,
    .stats,
    .analyze ⟨p, none, none⟩ y javascript,
    .visualize ⟨p, none, none⟩ ⟨x, javascript, 0, 3⟩,
    .stats,
    .clear,
    .visualize ⟨p, none, some failure⟩ ⟨y, typescript, 15, 100⟩]

/-- What the session is told about the cache: the second step is answered from it, and two entries are
displaced before it is cleared. -/
theorem answers_exchanging {p : Parser} {failure : Failure} {x y : Text} {root : Syntax.ConcreteNode}
    (hx : parse p x = .clean root) (hy : parse p y = .clean root)
    (hsize : x ≠ [] ∧ (Utf8.encode x).length = 3) (hne : Digest.ofText x ≠ Digest.ofText y) :
    let answers := run (Cache.empty 1 Nat.one_pos) (exchanging p failure x y)
    answers[1]?.bind Answer.cached? = some true ∧
      answers[3]?.bind Answer.stats? = some ⟨1, 1, 1, 1, 0⟩ ∧
      answers[6]?.bind Answer.stats? = some ⟨1, 1, 1, 3, 2⟩ := by
  simp [run, runFrom, step, exchanging, CodeAtlas.analyze, CodeAtlas.visualize, Request.rejection?,
    analyzeFresh, extract, keep, hx, hy, hsize, hne, hne.symm, Cache.empty, Cache.lookup,
    Cache.find?, Cache.insert, Cache.contains, Cache.size, Cache.without, Cache.stats,
    Answer.cached?, Answer.stats?, Except.map]

/-- Two texts that displace each other from a cache of one entry, with the parser of the grammar and with
one that knows the tree of the two texts; the latter is seen to be asked again for a text that has been
displaced, and not for one that is still there. -/
theorem run_transparent_displacing :
    let grammar := Parser.ofBuilder (Parsing.Language.ofGrammar Grammar.Tsx.grammar).concrete
    let known := Parser.ofBuilder fun _ ↦ .branch "program" 0 3 none
      [.branch "expression_statement" 0 3 none [.branch "call_expression" 0 3 none
        [.branch "identifier" 0 1 (some "function") [],
          .branch "arguments" 1 3 (some "arguments") [.token "(" 1 2, .token ")" 2 3]]]]
    let failure := Failure.foreign (Text.ofString "RuntimeError") (Text.ofString "boom") (some 418)
    let steps (p : Parser) := exchanging p failure (Text.ofString "f()") (Text.ofString "g()")
    let answers (p : Parser) := run (Cache.empty 1 Nat.one_pos) (steps p)
    0 < 1 ∧
      (∀ s ∈ steps grammar, s.RunsOn grammar) ∧
      Set.InjOn Digest.ofText {t | t ∈ sources (steps grammar)} ∧
      List.Forall₂ Step.Allows (steps grammar) (answers grammar) ∧
      (∀ s ∈ steps known, s.RunsOn known) ∧
      Set.InjOn Digest.ofText {t | t ∈ sources (steps known)} ∧
      List.Forall₂ Step.Allows (steps known) (answers known) ∧
      (answers known)[1]?.bind Answer.cached? = some true ∧
      (answers known)[3]?.bind Answer.stats? = some ⟨1, 1, 1, 1, 0⟩ ∧
      (answers known)[6]?.bind Answer.stats? = some ⟨1, 1, 1, 3, 2⟩ := by
  intro grammar known failure steps answers
  have hp (p : Parser) : ∀ s ∈ steps p, s.RunsOn p := by
    simp only [steps, exchanging, List.forall_mem_cons]
    refine ⟨⟨rfl, rfl⟩, ⟨rfl, rfl⟩, ⟨rfl, rfl⟩, trivial, ⟨rfl, rfl⟩, ⟨rfl, rfl⟩, trivial, trivial,
      ⟨rfl, rfl⟩, ?_⟩
    simp
  have hne : Digest.ofText (Text.ofString "f()") ≠ Digest.ofText (Text.ofString "g()") := by
    rw [Digest.ofText, Digest.ofText, Digest.sha256_eq_of_length (by decide +kernel),
      Digest.sha256_eq_of_length (by decide +kernel)]
    decide +kernel
  have hsources (p : Parser) : ∀ t ∈ sources (steps p),
      t = Text.ofString "f()" ∨ t = Text.ofString "g()" := by
    have hlist : sources (steps p) = [Text.ofString "f()", Text.ofString "f()", Text.ofString "f()",
      Text.ofString "g()", Text.ofString "f()", Text.ofString "g()"] := rfl
    simp [hlist]
  have hd (p : Parser) : Set.InjOn Digest.ofText {t | t ∈ sources (steps p)} :=
    (Set.injOn_pair.2 fun heq ↦ absurd heq hne).mono (hsources p)
  have htold : (answers known)[1]?.bind Answer.cached? = some true ∧
      (answers known)[3]?.bind Answer.stats? = some ⟨1, 1, 1, 1, 0⟩ ∧
      (answers known)[6]?.bind Answer.stats? = some ⟨1, 1, 1, 3, 2⟩ :=
    answers_exchanging rfl rfl (by decide +kernel) hne
  exact ⟨Nat.one_pos, hp grammar, hd grammar, run_transparent Nat.one_pos (hp grammar) (hd grammar),
    hp known, hd known, run_transparent Nat.one_pos (hp known) (hd known), htold⟩

end Session

end CodeAtlas
