import CodeAtlas.Proofs.Service.Outcome
import CodeAtlas.Proofs.Service.Transparency

/-!
# What failing steps leave behind

An analysis ends in one of four ways, and only one of them stores something (`AnalysisEnds`). A request
that is not refused does to the cache what the analysis of its source does, and nothing after it. So a
step that fails has left the entries alone, or it fails after they are stored (`StepEnds`). Main
statement: `cache_of_failed_step`.
-/

namespace CodeAtlas

/-! ### Problems -/

namespace Problem

theorem ofRejection_ne_ofStage (x : Rejection) (s : Stage) (cause : Failure) :
    ofRejection x ≠ ofStage s cause := by
  intro h
  cases h

theorem ofStage_eq_iff {s t : Stage} {cause cause' : Failure} :
    ofStage s cause = ofStage t cause' ↔ s = t ∧ cause = cause' := by
  have hname : s.name = t.name ↔ s = t := by
    cases s <;> cases t <;> decide +kernel
  rw [ofStage, ofStage, Problem.defect.injEq, hname]

end Problem

/-! ### Analyses -/

/-- A lookup that finds nothing is counted. -/
theorem Cache.lookup_of_fst_eq_none {κ α : Type} [DecidableEq κ] {c : Cache κ α} {k : κ}
    (h : (c.lookup k).1 = none) : (c.lookup k).2 = { c with misses := c.misses + 1 } := by
  rw [fst_lookup] at h
  rw [lookup_of_find?_eq_none h]

/-- How an analysis ends, and the cache that it leaves behind. -/
inductive AnalysisEnds (s : Stages) (source : Text) (c : Store) :
    Except Problem Analysis → Store → Prop
  | found {i} : (c.lookup (Digest.ofText source)).1 = some i →
    AnalysisEnds s source c (.ok ⟨Digest.ofText source, some i, [], true⟩)
      (c.lookup (Digest.ofText source)).2
  | explained {ds} : (c.lookup (Digest.ofText source)).1 = none → parse s.parser source = .failed ds →
    AnalysisEnds s source c (.ok ⟨Digest.ofText source, none, ds, false⟩)
      { c with misses := c.misses + 1 }
  | defect {root cause} : (c.lookup (Digest.ofText source)).1 = none →
    parse s.parser source = .clean root → s.extraction = some cause →
    AnalysisEnds s source c (.error (.ofStage .extraction cause)) { c with misses := c.misses + 1 }
  | stored {root i} : (c.lookup (Digest.ofText source)).1 = none →
    parse s.parser source = .clean root → s.extraction = none →
    i = Inventory.ofTree (root.view (Utf8.encode source)) →
    AnalysisEnds s source c (.ok ⟨Digest.ofText source, some i, [], false⟩)
      (Cache.insert { c with misses := c.misses + 1 } (Digest.ofText source) i)

/-- Every analysis with a cache ends in one of these ways. -/
theorem exists_analyze_eq (s : Stages) (source : Text) (c : Store) :
    ∃ result left, analyze s source (some c) = (result, some left) ∧
      AnalysisEnds s source c result left := by
  cases hl : (c.lookup (Digest.ofText source)).1 with
  | some i => exact ⟨_, _, analyze_of_lookup_some hl, .found hl⟩
  | none =>
    refine ⟨_, _, analyze_of_lookup_none hl, ?_⟩
    rw [Cache.lookup_of_fst_eq_none hl, analyzeFresh]
    cases hp : parse s.parser source with
    | failed ds => exact .explained hl hp
    | clean root =>
      unfold extract
      cases he : s.extraction with
      | some cause => exact .defect hl hp he
      | none => exact .stored hl hp he rfl

namespace Session

/-! ### Steps -/

/-- The problem that a step is answered by. -/
def Answer.problem? : Answer → Option Problem
  | .visualized (.error p) | .analyzed (.error p) => some p
  | .visualized (.ok _) | .analyzed (.ok _) | .stats _ | .cleared _ => none

/-- The diagnostics that a step is answered by. -/
def Answer.diagnostics : Answer → List Diagnostic
  | .visualized (.ok o) => o.response.diagnostics
  | .analyzed (.ok a) => a.diagnostics
  | .visualized (.error _) | .analyzed (.error _) | .stats _ | .cleared _ => []

/-- A step is answered as it should be: by what a source contains, or by what it asks of the cache. -/
def Answer.Succeeds : Answer → Prop
  | .visualized (.ok o) => o.response.Shows
  | .analyzed (.ok a) => a.success = true ∧ a.diagnostics = []
  | .visualized (.error _) | .analyzed (.error _) => False
  | .stats _ | .cleared _ => True

theorem Answer.Succeeds.problem?_eq_none {answer : Answer} (h : answer.Succeeds) :
    answer.problem? = none := by
  cases answer with
  | visualized result | analyzed result =>
    cases result with
    | error p => exact h.elim
    | ok => rfl
  | stats | cleared => rfl

theorem Answer.Succeeds.diagnostics_eq_nil {answer : Answer} (h : answer.Succeeds) :
    answer.diagnostics = [] := by
  cases answer with
  | visualized result =>
    cases result with
    | error p => exact h.elim
    | ok o => exact h.diagnostics
  | analyzed result =>
    cases result with
    | error p => exact h.elim
    | ok a => exact h.2
  | stats | cleared => rfl

/-- The step with a visualization that is not made to fail. -/
def Step.drawn : Step → Step
  | .visualize s r => .visualize { s with visualization := none } r
  | .analyze s source language => .analyze s source language
  | .stats => .stats
  | .clear => .clear

/-- How a step ends, and the cache that it leaves behind if it fails. -/
inductive StepEnds (c : Store) (s : Step) (answer : Answer) (left : Store) : Prop
  | refused {x} : answer.problem? = some (.ofRejection x) → answer.diagnostics = [] → left = c →
    StepEnds c s answer left
  | explained : answer.problem? = none → answer.diagnostics ≠ [] →
    left = { c with misses := c.misses + 1 } → StepEnds c s answer left
  | extraction {cause} : answer.problem? = some (.ofStage .extraction cause) →
    left = { c with misses := c.misses + 1 } → StepEnds c s answer left
  | visualization {cause} : answer.problem? = some (.ofStage .visualization cause) →
    answer.diagnostics = [] → (step c s.drawn).1.Succeeds → left = (step c s.drawn).2 →
    StepEnds c s answer left
  | done : answer.Succeeds → StepEnds c s answer left

variable {c : Store}

/-- A request that is not refused does to the cache what the analysis of its source does. -/
theorem step_visualize_eq {s : Stages} {r : Request} {result : Except Problem Analysis}
    {left : Store} (hr : r.rejection? = none)
    (h : CodeAtlas.analyze s r.source (some c) = (result, some left)) :
    step c (.visualize s r) = (.visualized (result.bind (respond s r.room)), left) := by
  simp only [step, CodeAtlas.visualize, hr, h, Option.getD_some]

/-- An analysis in a session ends in one of these ways. -/
theorem stepEnds_analyze (c : Store) (s : Stages) (source language : Text) :
    StepEnds c (.analyze s source language) (step c (.analyze s source language)).1
      (step c (.analyze s source language)).2 := by
  obtain ⟨result, left, heq, hends⟩ := exists_analyze_eq s source c
  simp only [step, heq, Option.getD_some]
  cases hends with
  | found => exact .done ⟨rfl, rfl⟩
  | explained _ hp => exact .explained rfl (parse_failed_ne_nil hp) rfl
  | defect => exact .extraction rfl rfl
  | stored => exact .done ⟨rfl, rfl⟩

/-- A request whose analysis has an inventory ends with what is shown of it, or the visualization
fails. -/
theorem stepEnds_of_inventory (hc : Stocked c) {left : Store} {s : Stages} {r : Request}
    {a : Analysis} {i : Inventory} (hr : r.rejection? = none)
    (ha : CodeAtlas.analyze s r.source (some c) = (.ok a, some left)) (hi : a.inventory = some i) :
    StepEnds c (.visualize s r) (step c (.visualize s r)).1 (step c (.visualize s r)).2 := by
  have hinformative : a.Informative := by
    refine informative_of_analyze (fun c' hc' ↦ ?_) (congrArg Prod.fst ha)
    rwa [← Option.some.inj hc']
  rw [step_visualize_eq hr ha, Except.bind]
  cases hs : s.visualization with
  | none =>
    obtain ⟨o, ho, hshows⟩ := exists_respond_eq_shown hs r.room hinformative hi
    rw [ho]
    exact .done hshows
  | some cause =>
    obtain ⟨o, ho, hshows⟩ := exists_respond_eq_shown (s := { s with visualization := none }) rfl
      r.room hinformative hi
    -- The analysis does not ask what the visualization fails with.
    have hsame : CodeAtlas.analyze { s with visualization := none } r.source (some c) =
        (.ok a, some left) := ha
    have hdrawn : step c (Step.drawn (.visualize s r)) = (.visualized (.ok o), left) := by
      rw [Step.drawn, step_visualize_eq hr hsame, Except.bind, ho]
    have hfails : respond s r.room a = .error (.ofStage .visualization cause) := by
      simp only [respond, hi, show?, hs]
      rfl
    rw [hfails]
    refine .visualization rfl rfl ?_ ?_
    · rw [hdrawn]
      exact hshows
    · rw [hdrawn]

/-- A request in a session ends in one of these ways. -/
theorem stepEnds_visualize (hc : Stocked c) (s : Stages) (r : Request) :
    StepEnds c (.visualize s r) (step c (.visualize s r)).1 (step c (.visualize s r)).2 := by
  cases hr : r.rejection? with
  | some x =>
    simp only [step, visualize_eq_rejected hr, Option.getD_some]
    exact .refused rfl rfl rfl
  | none =>
    obtain ⟨result, left, heq, hends⟩ := exists_analyze_eq s r.source c
    cases hends with
    | found => exact stepEnds_of_inventory hc hr heq rfl
    | explained _ hp =>
      rw [step_visualize_eq hr heq]
      exact .explained rfl (parse_failed_ne_nil hp) rfl
    | defect =>
      rw [step_visualize_eq hr heq]
      exact .extraction rfl rfl
    | stored => exact stepEnds_of_inventory hc hr heq rfl

/-- Every step of a session ends in one of these ways. -/
theorem stepEnds (hc : Stocked c) (s : Step) : StepEnds c s (step c s).1 (step c s).2 := by
  cases s with
  | visualize s r => exact stepEnds_visualize hc s r
  | analyze s source language => exact stepEnds_analyze c s source language
  | stats => exact .done trivial
  | clear => exact .done trivial

/-- A step that fails leaves the cache as it was, whatever a session has made of the cache. If a source
is refused, nothing changes. If there are diagnostics, because the source has errors or because the
parser cannot read it, or if the extraction fails, one more lookup without a result is counted and
nothing else changes. If the visualization fails, the cache is what the step leaves behind where the
visualization does not fail, and there the step succeeds. A step fails in no other way. -/
theorem cache_of_failed_step (hc : Reachable c) (s : Step) :
    let answer := (step c s).1
    let left := (step c s).2
    ((∃ x, answer.problem? = some (.ofRejection x)) → left = c) ∧
      (answer.diagnostics ≠ [] ∨ (∃ cause, answer.problem? = some (.ofStage .extraction cause)) →
        left = { c with misses := c.misses + 1 }) ∧
      ((∃ cause, answer.problem? = some (.ofStage .visualization cause)) →
        (step c s.drawn).1.Succeeds ∧ left = (step c s.drawn).2) ∧
      (answer.Succeeds ∨ answer.diagnostics ≠ [] ∨ (∃ x, answer.problem? = some (.ofRejection x)) ∨
        ∃ stage cause, answer.problem? = some (.ofStage stage cause)) := by
  intro answer left
  cases stepEnds hc.stocked s with
  | refused hproblem hdiagnostics hleft =>
    simp [answer, left, hproblem, hdiagnostics, hleft, Problem.ofRejection_ne_ofStage]
  | explained hproblem hdiagnostics hleft => simp [answer, left, hproblem, hdiagnostics, hleft]
  | extraction hproblem hleft =>
    simp [answer, left, hproblem, hleft, (Problem.ofRejection_ne_ofStage _ _ _).symm,
      Problem.ofStage_eq_iff]
  | visualization hproblem hdiagnostics hdrawn hleft =>
    simp [answer, left, hproblem, hdiagnostics, hdrawn, hleft,
      (Problem.ofRejection_ne_ofStage _ _ _).symm, Problem.ofStage_eq_iff]
  | done hsucceeds =>
    simp [answer, left, hsucceeds, hsucceeds.problem?_eq_none, hsucceeds.diagnostics_eq_nil]

/-- In a cache of one entry that holds another text: a request that is refused, two steps that fail
before anything is stored, and one that fails after it has displaced the entry. -/
theorem cache_of_failed_step_displacing :
    let clean : Parser := fun _ ↦
      .ok (.node ⟨Text.ofString "program", 0, 1, true, false, false, none⟩ [])
    let failure := Failure.foreign (Text.ofString "RuntimeError") (Text.ofString "boom") none
    let javascript := Request.defaultLanguage
    let c := (runFrom (Cache.empty 1 Nat.one_pos)
      [.analyze ⟨clean, none, none⟩ (Text.ofString "x") javascript]).2
    let request : Request := ⟨Text.ofString "y", javascript, 15, 100⟩
    let refused : Step := .visualize ⟨clean, none, none⟩ { request with source := [] }
    let unread : Step :=
      .analyze ⟨.missing (Text.ofString "no grammar"), none, none⟩ request.source javascript
    let unextracted : Step := .visualize ⟨clean, some failure, none⟩ request
    let undrawn : Step := .visualize ⟨clean, none, some failure⟩ request
    Reachable c ∧ (step c refused).2 = c ∧
      (step c unread).2 = { c with misses := c.misses + 1 } ∧
      (step c unextracted).2 = { c with misses := c.misses + 1 } ∧
      (step c undrawn).2 = (step c undrawn.drawn).2 ∧
      (step c undrawn).2.keys = [Digest.ofText request.source] := by
  intro clean failure javascript c request refused unread unextracted undrawn
  have hc : Reachable c := ⟨1, Nat.one_pos, _, rfl⟩
  have hne : Digest.ofText (Text.ofString "x") ≠ Digest.ofText request.source :=
    Digest.ofText_x_ne_ofText_y
  obtain ⟨i, hi⟩ : ∃ i, c = ⟨1, [(Digest.ofText (Text.ofString "x"), i)], 0, 1, 0, Nat.one_pos⟩ :=
    ⟨_, rfl⟩
  have hlookup : (c.lookup (Digest.ofText request.source)).1 = none := by
    simp [hi, Cache.lookup, Cache.find?, hne]
  have hrequest : request.rejection? = none := by decide +kernel
  have hrefused : (step c refused).1.problem? = some (.ofRejection .empty) := rfl
  have hunread : (step c unread).1.diagnostics ≠ [] := by
    simp only [unread, step, analyze_of_lookup_none hlookup]
    exact List.cons_ne_nil _ _
  have hunextracted : (step c unextracted).1.problem? = some (.ofStage .extraction failure) := by
    rw [step_visualize_eq hrequest (analyze_of_lookup_none hlookup)]
    rfl
  have hundrawn : (step c undrawn).1.problem? = some (.ofStage .visualization failure) := by
    rw [step_visualize_eq hrequest (analyze_of_lookup_none hlookup)]
    rfl
  have hstored : ∃ j, (step c undrawn).2 =
      Cache.insert { c with misses := c.misses + 1 } (Digest.ofText request.source) j := by
    rw [step_visualize_eq hrequest (analyze_of_lookup_none hlookup),
      Cache.lookup_of_fst_eq_none hlookup]
    exact ⟨_, rfl⟩
  have hkeys : (step c undrawn).2.keys = [Digest.ofText request.source] := by
    obtain ⟨j, hj⟩ := hstored
    rw [hj, hi]
    simp [Cache.insert, Cache.contains, Cache.size, Cache.keys, hne]
  exact ⟨hc, (cache_of_failed_step hc refused).1 ⟨_, hrefused⟩,
    (cache_of_failed_step hc unread).2.1 (.inl hunread),
    (cache_of_failed_step hc unextracted).2.1 (.inr ⟨_, hunextracted⟩),
    ((cache_of_failed_step hc undrawn).2.2.1 ⟨_, hundrawn⟩).2, hkeys⟩

end Session

end CodeAtlas
