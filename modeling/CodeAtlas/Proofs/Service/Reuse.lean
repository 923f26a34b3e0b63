import CodeAtlas.Proofs.Cache.Recency
import CodeAtlas.Proofs.Service.Transparency

/-!
# Reused inventories

Whether an answer is marked as cached depends on the history of its session alone. A step counts as
soon as its text has an inventory, whatever the visualization makes of it; a source that is refused,
one without a clean tree and an extraction that fails do not count. A text is found again as long as
fewer distinct other texts than there is room for have counted since it last did. Main statement:
`cached_run_iff`.
-/

namespace CodeAtlas

open Cache (Recent Use WithinReach touched)

/-! ### Sources with an inventory -/

/-- Whether parsing has yielded a tree without errors. -/
def ParseOutcome.isClean : ParseOutcome → Bool
  | clean _ => true
  | failed _ => false

/-- Whether a source has an inventory: the cache holds it, or the tree is clean and the extraction does
not fail. -/
def reaches (s : Stages) (c : Store) (source : Text) : Bool :=
  c.contains (Digest.ofText source) || ((parse s.parser source).isClean && s.extraction.isNone)

/-- The texts with an inventory, the latest first, after one more source. -/
def textsAfter (s : Stages) (c : Store) (texts : List Text) (source : Text) : List Text :=
  if reaches s c source then source :: texts else texts

theorem textsAfter_eq (s : Stages) (c : Store) (texts : List Text) (source : Text) :
    textsAfter s c texts source =
      ((if reaches s c source then some source else none).map .touch).elim texts
        (Use.after texts) := by
  unfold textsAfter
  split <;> rfl

/-- A fresh analysis is kept if the tree is clean and the extraction does not fail, and only then. -/
theorem keep_analyzeFresh (c : Store) (s : Stages) (source : Text) :
    if (parse s.parser source).isClean && s.extraction.isNone then
      ∃ i, keep c (analyzeFresh s source) = c.insert (Digest.ofText source) i
    else keep c (analyzeFresh s source) = c := by
  unfold analyzeFresh extract
  cases parse s.parser source with
  | failed ds => rfl
  | clean root =>
    cases s.extraction with
    | some cause => rfl
    | none => exact ⟨Inventory.ofTree (root.view (Utf8.encode source)), rfl⟩

variable {capacity : Nat} {c : Store} {texts : List Text}

/-- The mark of an analysis tells whether the cache held its source, and one without an inventory has
none. -/
theorem cached_of_analyze {s : Stages} {source : Text} {a : Analysis}
    (h : (analyze s source (some c)).1 = .ok a) :
    a.cached = c.contains (Digest.ofText source) ∧ (a.inventory = none → a.cached = false) := by
  rw [← Cache.isSome_lookup]
  cases hl : (c.lookup (Digest.ofText source)).1 with
  | some i =>
    rw [analyze_of_lookup_some hl] at h
    cases h
    exact ⟨rfl, fun hi ↦ nomatch hi⟩
  | none =>
    rw [analyze_of_lookup_none hl] at h
    have hfresh := unmarked_analyzeFresh s source
    rw [show analyzeFresh s source = .ok a from h] at hfresh
    have hmark : a.cached = false := (congrArg Analysis.cached (Except.ok.inj hfresh)).symm
    exact ⟨hmark, fun _ ↦ hmark⟩

/-- The mark of an answer is that of its analysis. -/
theorem cached_of_respond {s : Stages} {room : Int} {a : Analysis} {o : Outcome}
    (ha : a.inventory = none → a.cached = false) (h : respond s room a = .ok o) :
    o.response.cached = a.cached := by
  unfold respond at h
  split at h
  next hi =>
    cases h
    exact (ha hi).symm
  next i hi =>
    cases hs : show? s room i with
    | error e =>
      rw [hs] at h
      cases h
    | ok v =>
      rw [hs] at h
      cases h
      rfl

/-- The mark of an answer to a request tells whether the cache held its source. -/
theorem cached_of_visualize {s : Stages} {r : Request} {o : Outcome}
    (h : (visualize s r (some c)).1 = .ok o) :
    o.response.cached = c.contains (Digest.ofText r.source) := by
  cases hr : r.rejection? with
  | some x =>
    rw [visualize_eq_rejected hr] at h
    cases h
  | none =>
    simp only [visualize, hr] at h
    cases ha : (analyze s r.source (some c)).1 with
    | error e =>
      rw [ha] at h
      cases h
    | ok a =>
      rw [ha] at h
      obtain ⟨hcontains, hnone⟩ := cached_of_analyze ha
      rw [cached_of_respond hnone h, hcontains]

/-- After an analysis the cache holds the sources that have had an inventory last. -/
theorem recent_analyze (hc : Recent capacity (texts.map Digest.ofText) c) (s : Stages)
    (source : Text) : ∃ c', (analyze s source (some c)).2 = some c' ∧
      Recent capacity ((textsAfter s c texts source).map Digest.ofText) c' := by
  have hcontains := Cache.isSome_lookup c (Digest.ofText source)
  cases hl : (c.lookup (Digest.ofText source)).1 with
  | some i =>
    have hreaches : reaches s c source = true := by
      rw [reaches, ← hcontains, hl]
      rfl
    rw [analyze_of_lookup_some hl, textsAfter, if_pos hreaches]
    exact ⟨_, rfl, hc.lookup_of_some hl⟩
  | none =>
    have hreaches : reaches s c source =
        ((parse s.parser source).isClean && s.extraction.isNone) := by
      rw [reaches, ← hcontains, hl]
      rfl
    -- The fresh analysis is stored exactly if it yields an inventory, and then it is a touch.
    have hmiss := hc.lookup_of_none hl
    have hkeep := keep_analyzeFresh (c.lookup (Digest.ofText source)).2 s source
    rw [analyze_of_lookup_none hl, textsAfter, hreaches]
    refine ⟨_, rfl, ?_⟩
    split at hkeep
    next hreached =>
      obtain ⟨i, hkeep⟩ := hkeep
      rw [hkeep, if_pos hreached]
      exact hmiss.insert _ i
    next hreached =>
      rw [hkeep, if_neg hreached]
      exact hmiss

namespace Session

/-! ### One step -/

/-- The text that a step takes to an inventory. A source that is refused has none, and what the
visualization makes of an inventory does not matter. -/
def Step.analyzed? (c : Store) : Step → Option Text
  | .visualize s r => if r.rejection?.isNone && reaches s c r.source then some r.source else none
  | .analyze s source _ => if reaches s c source then some source else none
  | .stats => none
  | .clear => none

/-- What a step means for the order in which texts are used. -/
def Step.use? (c : Store) : Step → Option (Use Text)
  | .clear => some .clear
  | s => (s.analyzed? c).map .touch

/-- The mark of an answer tells whether the cache held the text of the step. -/
theorem cached?_step {s : Step} {t : Text} {b : Bool} (hs : s.source? = some t)
    (hb : (step c s).1.cached? = some b) : b = c.contains (Digest.ofText t) := by
  cases s with
  | visualize s r =>
    cases hs
    cases ho : (CodeAtlas.visualize s r (some c)).1 with
    | error e => simp [step, ho, Answer.cached?] at hb
    | ok o =>
      have hmark : o.response.cached = b := by simpa [step, ho, Answer.cached?] using hb
      rw [← hmark, cached_of_visualize ho]
  | analyze s source language =>
    cases hs
    cases ha : (CodeAtlas.analyze s t (some c)).1 with
    | error e => simp [step, ha, Answer.cached?] at hb
    | ok a =>
      have hmark : a.cached = b := by simpa [step, ha, Answer.cached?] using hb
      rw [← hmark, (cached_of_analyze ha).1]
  | stats => cases hs
  | clear => cases hs

/-- After a step the cache holds the texts that have counted last. -/
theorem recent_step (hc : Recent capacity (texts.map Digest.ofText) c) (s : Step) :
    Recent capacity (((s.use? c).elim texts (Use.after texts)).map Digest.ofText)
      (step c s).2 := by
  cases s with
  | visualize s r =>
    cases hr : r.rejection? with
    | some x => simpa [step, visualize_eq_rejected hr, Step.use?, Step.analyzed?, hr] using hc
    | none =>
      obtain ⟨c', hanalyze, hkept⟩ := recent_analyze hc s r.source
      rw [textsAfter_eq] at hkept
      simpa [step, CodeAtlas.visualize, hr, hanalyze, Step.use?, Step.analyzed?] using hkept
  | analyze s source language =>
    obtain ⟨c', hanalyze, hkept⟩ := recent_analyze hc s source
    rw [textsAfter_eq] at hkept
    simpa [step, hanalyze, Step.use?, Step.analyzed?] using hkept
  | stats => exact hc
  | clear => exact hc.clear

/-- A text that counts is the one that the step takes. -/
theorem source?_of_analyzed? {s : Step} {t : Text} (h : s.analyzed? c = some t) :
    s.source? = some t := by
  cases s with
  | visualize | analyze =>
    rw [Step.analyzed?] at h
    split at h
    · exact h
    · cases h
  | stats | clear => cases h

/-- A text that is touched is the one that the step takes. -/
theorem source?_of_use? {s : Step} {t : Text} (h : s.use? c = some (.touch t)) :
    s.source? = some t := by
  cases s with
  | clear | stats => cases h
  | visualize | analyze =>
    obtain ⟨t', ht, heq⟩ := Option.map_eq_some_iff.1 h
    cases heq
    exact source?_of_analyzed? ht

/-! ### Whole sessions -/

/-- What the steps of a session mean for the order in which texts are used. -/
def uses (c : Store) : List Step → List (Use Text)
  | [] => []
  | s :: ss => (s.use? c).toList ++ uses (step c s).2 ss

/-- The texts that have counted since the last clearing, the latest first. -/
def analyzedTexts (c : Store) (steps : List Step) : List Text := touched (uses c steps)

/-- The answer to a step is the one in the cache that the steps before leave. -/
theorem getElem?_run (c : Store) (steps : List Step) (i : Nat) :
    (run c steps)[i]? = steps[i]?.map fun s ↦ (step (runFrom c (steps.take i)).2 s).1 := by
  induction steps generalizing c i with
  | nil => simp [run, runFrom]
  | cons s ss ih =>
    cases i with
    | zero => rfl
    | succ i => exact ih (step c s).2 i

/-- After several steps the cache holds the texts that have counted last. -/
theorem recent_runFrom (hc : Recent capacity (texts.map Digest.ofText) c) (steps : List Step) :
    Recent capacity (((uses c steps).foldl Use.after texts).map Digest.ofText)
      (runFrom c steps).2 := by
  induction steps generalizing c texts with
  | nil => exact hc
  | cons s ss ih =>
    have hkept := ih (recent_step hc s)
    have hleft : (runFrom c (s :: ss)).2 = (runFrom (step c s).2 ss).2 := rfl
    rw [hleft, uses, List.foldl_append]
    cases hu : s.use? c with
    | none => simpa [hu] using hkept
    | some u => simpa [hu] using hkept

/-- A text that counts is one of the session. -/
theorem mem_sources_of_mem_uses {steps : List Step} {t : Text} (h : .touch t ∈ uses c steps) :
    t ∈ sources steps := by
  induction steps generalizing c with
  | nil => cases h
  | cons s ss ih =>
    rw [uses] at h
    rw [sources, List.filterMap_cons]
    rcases List.mem_append.1 h with h | h
    · rw [source?_of_use? (Option.mem_toList.1 h)]
      exact List.mem_cons_self ..
    · have hrest := ih h
      cases s.source? with
      | none => exact hrest
      | some t' => exact List.mem_cons_of_mem t' hrest

/-- The mark of an answer follows the distance to the last use of its text. In a session with a cache of
any capacity, whatever stages fail in whatever steps, a step that answers for a text is marked as cached
exactly if the text has counted since the last clearing and, since it last did, fewer distinct other
texts than the capacity have, provided that no two texts of the session have the same digest. -/
theorem cached_run_iff {capacity : Nat} (h : 0 < capacity) {steps : List Step}
    (hd : Set.InjOn Digest.ofText {t | t ∈ sources steps}) {i : Nat} {t : Text} {marked : Bool}
    (ht : steps[i]?.bind Step.source? = some t)
    (hm : (run (Cache.empty capacity h) steps)[i]?.bind Answer.cached? = some marked) :
    let past := analyzedTexts (Cache.empty capacity h) (steps.take i)
    marked = true ↔ t ∈ past ∧ (past.takeWhile (· ≠ t)).toFinset.card < capacity := by
  intro past
  obtain ⟨s, hs, hsource⟩ := Option.bind_eq_some_iff.1 ht
  rw [getElem?_run, hs] at hm
  have hempty : Recent capacity (([] : List Text).map Digest.ofText) (Cache.empty capacity h : Store) :=
    Cache.recent_empty h
  have hrecent := recent_runFrom hempty (steps.take i)
  have htexts : ∀ t' ∈ t :: past, t' ∈ sources steps := by
    intro t' ht'
    rcases List.mem_cons.1 ht' with rfl | ht'
    · exact List.mem_filterMap.2 ⟨s, List.mem_of_getElem? hs, hsource⟩
    · have hused := (Cache.mem_foldl_after ht').resolve_left List.not_mem_nil
      exact (List.take_sublist i steps).filterMap _ |>.subset (mem_sources_of_mem_uses hused)
  -- The cache holds digests. As no two texts of the session share one, reach is the same for both.
  calc
    marked = true ↔ (runFrom (Cache.empty capacity h) (steps.take i)).2.contains
        (Digest.ofText t) = true := by
      rw [cached?_step hsource hm]
    _ ↔ WithinReach capacity (past.map Digest.ofText) (Digest.ofText t) := by
      rw [hrecent.contains_iff]
      rfl
    _ ↔ WithinReach capacity past t := Cache.withinReach_map_iff (hd.mono htexts)

/-- A session in which `y` displaces `x` although its visualization fails, and in which it is refused,
not parsed and not extracted later. -/
def displacing (p : Parser) (failure : Failure) (x y : Text) : List Step :=
  let javascript := Request.defaultLanguage
  [.analyze ⟨p, none, none⟩ x javascript,
    .visualize ⟨p, none, some failure⟩ ⟨y, javascript, 50, 1⟩,
    .analyze ⟨p, none, none⟩ x javascript,
    .visualize ⟨p, none, none⟩ ⟨y, javascript, 50, 0⟩,
    .analyze ⟨Parser.missing (Text.ofString "no grammar"), none, none⟩ y javascript,
    .analyze ⟨p, some failure, none⟩ y javascript,
    .analyze ⟨p, none, none⟩ x javascript]

/-- The marks of the session with a cache of one entry. -/
theorem map_cached?_run_displacing {p : Parser} {failure : Failure} {x y : Text}
    {root : Syntax.ConcreteNode} (hx : parse p x = .clean root) (hy : parse p y = .clean root)
    (hsize : y ≠ [] ∧ (Utf8.encode y).length = 1) (hne : Digest.ofText x ≠ Digest.ofText y) :
    (run (Cache.empty 1 Nat.one_pos) (displacing p failure x y)).map Answer.cached? =
      [some false, none, some false, none, some false, none, some true] := by
  have hmissing : ∀ reason, parse (.missing reason) y = .failed [Diagnosis.ofReason reason] :=
    fun _ ↦ rfl
  simp [run, runFrom, step, displacing, CodeAtlas.analyze, CodeAtlas.visualize,
    Request.rejection?, analyzeFresh, extract, keep, respond, show?, hx, hy, hmissing, hsize, hne,
    hne.symm, Cache.empty, Cache.lookup, Cache.find?, Cache.insert, Cache.contains, Cache.size,
    Cache.without, Answer.cached?, Except.map, Except.bind]

/-- In a cache of one entry a text is displaced by another one, and found again after other steps for the
other one that do not count. -/
theorem cached_run_iff_one_entry :
    let name : Syntax.ConcreteNode :=
      .node ⟨Text.ofString "program", 0, 1, true, false, false, none⟩
        [.node ⟨Text.ofString "expression_statement", 0, 1, true, false, false, none⟩
          [.node ⟨Text.ofString "identifier", 0, 1, true, false, false, none⟩ []]]
    let p := Parser.ofBuilder fun _ ↦ name
    let failure := Failure.foreign (Text.ofString "RuntimeError") (Text.ofString "boom") none
    let x := Text.ofString "x"
    let steps := displacing p failure x (Text.ofString "y")
    let cache : Store := Cache.empty 1 Nat.one_pos
    0 < 1 ∧ Set.InjOn Digest.ofText {t | t ∈ sources steps} ∧
      steps[2]?.bind Step.source? = some x ∧
      (run cache steps)[2]?.bind Answer.cached? = some false ∧
      ¬WithinReach 1 (analyzedTexts cache (steps.take 2)) x ∧
      steps[6]?.bind Step.source? = some x ∧
      (run cache steps)[6]?.bind Answer.cached? = some true ∧
      WithinReach 1 (analyzedTexts cache (steps.take 6)) x := by
  intro name p failure x steps cache
  have hne : Digest.ofText x ≠ Digest.ofText (Text.ofString "y") := Digest.ofText_x_ne_ofText_y
  have hsources : ∀ t ∈ sources steps, t = x ∨ t = Text.ofString "y" := by
    have hlist : sources steps = [x, Text.ofString "y", x, Text.ofString "y", Text.ofString "y",
      Text.ofString "y", x] := rfl
    simp [hlist]
  have hd : Set.InjOn Digest.ofText {t | t ∈ sources steps} :=
    (Set.injOn_pair.2 fun heq ↦ absurd heq hne).mono hsources
  have hmarks : (run cache steps).map Answer.cached? =
      [some false, none, some false, none, some false, none, some true] :=
    map_cached?_run_displacing rfl rfl (by decide) hne
  have hmark : ∀ i : Nat, (run cache steps)[i]?.bind Answer.cached? =
      ([some false, none, some false, none, some false, none, some true][i]?).join := by
    intro i
    rw [← hmarks, List.getElem?_map]
    cases (run cache steps)[i]? <;> rfl
  have hsecond := cached_run_iff Nat.one_pos hd rfl (hmark 2)
  have hsixth := cached_run_iff Nat.one_pos hd rfl (hmark 6)
  exact ⟨Nat.one_pos, hd, rfl, hmark 2, fun hreach ↦ Bool.false_ne_true (hsecond.2 hreach), rfl,
    hmark 6, hsixth.1 rfl⟩

end Session

end CodeAtlas
