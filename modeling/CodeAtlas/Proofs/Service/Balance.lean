import CodeAtlas.Proofs.Cache.Balance
import CodeAtlas.Proofs.Service.Failing
import CodeAtlas.Proofs.Service.Reuse

/-!
# Balanced sessions

A step of a session looks its source up once, unless the source is refused, and stores an inventory only
if the lookup has missed. So the counters of the cache add up over a session as they do over operations,
whatever fails in the steps. Main statement: `counters_conserved`.
-/

namespace CodeAtlas

open Cache (Balanced)

variable {capacity lookups newcomers : Nat} {c : Store}

/-- Whether a source has an inventory that the cache does not hold. -/
def isNewcomer (s : Stages) (c : Store) (source : Text) : Bool :=
  !c.contains (Digest.ofText source) && reaches s c source

/-- An analysis looks its source up, and stores an inventory if there is one that the cache does not
hold. -/
theorem balanced_analyze (h : Balanced capacity lookups newcomers c) (s : Stages) (source : Text) :
    ∃ left, (analyze s source (some c)).2 = some left ∧
      Balanced capacity (lookups + 1) (newcomers + if isNewcomer s c source then 1 else 0) left := by
  have hcontains := Cache.isSome_lookup c (Digest.ofText source)
  have hlookup := h.lookup (Digest.ofText source)
  obtain ⟨result, left, heq, hends⟩ := exists_analyze_eq s source c
  refine ⟨left, congrArg Prod.snd heq, ?_⟩
  unfold isNewcomer reaches
  rw [← hcontains]
  cases hends with
  | found hl => simpa [hl] using hlookup
  | explained hl hp =>
    rw [Cache.lookup_of_fst_eq_none hl] at hlookup
    simpa [hl, hp, ParseOutcome.isClean] using hlookup
  | defect hl hp he =>
    rw [Cache.lookup_of_fst_eq_none hl] at hlookup
    simpa [hl, he] using hlookup
  | @stored root i hl hp he hi =>
    rw [hl] at hcontains
    rw [Cache.lookup_of_fst_eq_none hl] at hlookup
    simpa [hl, hp, he, ParseOutcome.isClean] using hlookup.insert_of_new hcontains.symm i

namespace Session

/-! ### One step -/

namespace Step

/-- Whether a step is a clearing. -/
def isClear : Step → Bool
  | .clear => true
  | .visualize _ _ | .analyze _ _ _ | .stats => false

/-- Whether a step is an analysis, or a request that is not refused. -/
def isAccepted : Step → Bool
  | .visualize _ r => r.rejection?.isNone
  | .analyze _ _ _ => true
  | .stats | .clear => false

/-- Whether a step is not refused, misses the cache and takes its source to an inventory, whatever the
visualization makes of it. -/
def isNewcomer (c : Store) : Step → Bool
  | .visualize s r => r.rejection?.isNone && CodeAtlas.isNewcomer s c r.source
  | .analyze s source _ => CodeAtlas.isNewcomer s c source
  | .stats | .clear => false

end Step

/-- Every step keeps the balance. -/
theorem balanced_step (h : Balanced capacity lookups newcomers c) (s : Step) :
    Balanced capacity (if s.isClear then 0 else lookups + if s.isAccepted then 1 else 0)
      (if s.isClear then 0 else newcomers + if s.isNewcomer c then 1 else 0) (step c s).2 := by
  cases s with
  | visualize s r =>
    cases hr : r.rejection? with
    | some x =>
      simpa [step, visualize_eq_rejected hr, Step.isClear, Step.isAccepted, Step.isNewcomer,
        hr] using h
    | none =>
      obtain ⟨left, hanalyze, hkept⟩ := balanced_analyze h s r.source
      simpa [step, CodeAtlas.visualize, hanalyze, Step.isClear, Step.isAccepted, Step.isNewcomer,
        hr] using hkept
  | analyze s source language =>
    obtain ⟨left, hanalyze, hkept⟩ := balanced_analyze h s source
    have hleft : (step c (.analyze s source language)).2 = left := by simp [step, hanalyze]
    rw [hleft]
    exact hkept
  | stats => exact h
  | clear => exact h.clear

/-! ### Whole sessions -/

/-- The steps of a session, each with the cache that it meets. -/
def stepMoments (c : Store) (steps : List Step) : List (Store × Step) :=
  moments (fun c s ↦ (step c s).2) c steps

/-- How many analyses, and requests that are not refused, there are after the last clearing. -/
def acceptedIn (ms : List (Store × Step)) : Nat :=
  countSince Step.isClear (fun m ↦ m.2.isAccepted) ms

/-- How many steps after the last clearing take a source to an inventory that the cache does not
hold. -/
def newcomersIn (ms : List (Store × Step)) : Nat :=
  countSince Step.isClear (fun m ↦ m.2.isNewcomer m.1) ms

theorem snd_runFrom (c : Store) (steps : List Step) :
    (runFrom c steps).2 = steps.foldl (fun c s ↦ (step c s).2) c := by
  induction steps generalizing c with
  | nil => rfl
  | cons s ss ih => exact ih (step c s).2

/-- The counters of the cache agree with what a session has done since the last clearing. -/
theorem balanced_runFrom (h : 0 < capacity) (steps : List Step) :
    Balanced capacity (acceptedIn (stepMoments (Cache.empty capacity h) steps))
      (newcomersIn (stepMoments (Cache.empty capacity h) steps))
      (runFrom (Cache.empty capacity h) steps).2 := by
  rw [snd_runFrom]
  exact Cache.balanced_foldl (fun _ _ _ s hc ↦ balanced_step hc s) h steps

/-- A session that asks for the numbers of the cache at its end is told them. -/
theorem stats?_run_concat (c : Store) (steps : List Step) :
    (run c (steps ++ [.stats]))[steps.length]?.bind Answer.stats? =
      some (runFrom c steps).2.stats := by
  rw [getElem?_run, List.getElem?_concat_length, List.take_left, Option.map_some]
  rfl

/-- The counters of a cache lose nothing, whatever is done to it. After any operations, all since the
last clearing: hits and misses are as many as lookups; entries and evictions are as many as insertions
of keys that were absent; there are no more entries than there is room for, and as many if anything has
been evicted. After any session, whatever fails in its steps: hits and misses are as many as analyses
and requests that are not refused; entries and evictions are as many as those of them that missed and
came to an inventory; and these are the numbers that the session is told if it asks. -/
theorem counters_conserved {κ α : Type} [DecidableEq κ] {capacity : Nat} (h : 0 < capacity)
    (ops : List (Cache.Operation κ α)) (steps : List Step) :
    let used := (Cache.after (Cache.empty capacity h) ops).stats
    let past := Cache.operationMoments (Cache.empty capacity h) ops
    let store := (runFrom (Cache.empty capacity h) steps).2.stats
    let session := stepMoments (Cache.empty capacity h) steps
    (used.hits + used.misses = Cache.lookupsIn past ∧
      used.size + used.evictions = Cache.newcomersIn past ∧
      used.size ≤ capacity ∧ (0 < used.evictions → used.size = capacity)) ∧
    (store.hits + store.misses = acceptedIn session ∧
      store.size + store.evictions = newcomersIn session ∧
      store.size ≤ capacity ∧ (0 < store.evictions → store.size = capacity)) ∧
    (run (Cache.empty capacity h) (steps ++ [.stats]))[steps.length]?.bind Answer.stats? =
      some store := by
  intro used past store session
  have hused : Balanced capacity (Cache.lookupsIn past) (Cache.newcomersIn past)
      (Cache.after (Cache.empty capacity h) ops) := Cache.balanced_after h ops
  have hstore : Balanced capacity (acceptedIn session) (newcomersIn session)
      (runFrom (Cache.empty capacity h) steps).2 := balanced_runFrom h steps
  exact ⟨⟨hused.lookups_eq, hused.newcomers_eq, hused.size_le, hused.full⟩,
    ⟨hstore.lookups_eq, hstore.newcomers_eq, hstore.size_le, hstore.full⟩,
    stats?_run_concat (Cache.empty capacity h) steps⟩

/-- What is counted in a session in which two sources displace each other. -/
theorem counted_displacing {p : Parser} {failure : Failure} {x y : Text}
    {root : Syntax.ConcreteNode} (hx : parse p x = .clean root) (hy : parse p y = .clean root)
    (hsize : y ≠ [] ∧ (Utf8.encode y).length = 1) (hne : Digest.ofText x ≠ Digest.ofText y) :
    let session := stepMoments (Cache.empty 1 Nat.one_pos) (displacing p failure x y)
    acceptedIn session = 6 ∧ newcomersIn session = 3 := by
  have hmissing : ∀ reason, parse (.missing reason) y = .failed [Diagnosis.ofReason reason] :=
    fun _ ↦ rfl
  refine ⟨?_, ?_⟩
  · simp [acceptedIn, stepMoments, moments, countSince, List.rtakeWhile, displacing, Step.isClear,
      Step.isAccepted, Request.rejection?, hsize]
  · simp [newcomersIn, stepMoments, moments, countSince, List.rtakeWhile, displacing, Step.isClear,
      Step.isNewcomer, CodeAtlas.isNewcomer, reaches, ParseOutcome.isClean, step,
      CodeAtlas.analyze, CodeAtlas.visualize, Request.rejection?, analyzeFresh, extract, keep,
      hx, hy, hmissing, hsize, hne, hne.symm, Cache.empty, Cache.lookup, Cache.find?, Cache.insert,
      Cache.contains, Cache.size, Cache.without, Except.map]

/-- In a cache of one entry: operations with a clearing, a replacement and an eviction, and a session with
a request that is refused, a source that is not parsed, one that is not extracted and one that is not
drawn. -/
theorem counters_conserved_displacing :
    let ops : List (Cache.Operation Nat Nat) := [
      .insert 7 70, .lookup 7, .clear, .insert 1 10, .insert 2 20, .lookup 1, .insert 2 21,
      .contains 1, .lookup 2, .stats, .lookup 3]
    let name : Syntax.ConcreteNode :=
      .node ⟨Text.ofString "program", 0, 1, true, false, false, none⟩
        [.node ⟨Text.ofString "identifier", 0, 1, true, false, false, none⟩ []]
    let failure := Failure.foreign (Text.ofString "RuntimeError") (Text.ofString "boom") none
    let steps := displacing (Parser.ofBuilder fun _ ↦ name) failure (Text.ofString "x")
      (Text.ofString "y")
    let used := (Cache.after (Cache.empty 1 Nat.one_pos) ops).stats
    let store := (runFrom (Cache.empty 1 Nat.one_pos) steps).2.stats
    0 < 1 ∧ used.hits + used.misses = 3 ∧ used.size + used.evictions = 2 ∧ used.evictions = 1 ∧
      store.hits + store.misses = 6 ∧ store.size + store.evictions = 3 ∧ store.size ≤ 1 ∧
      (run (Cache.empty 1 Nat.one_pos) (steps ++ [.stats]))[steps.length]?.bind Answer.stats? =
        some store := by
  intro ops name failure steps used store
  have hevictions : used.evictions = 1 := by decide
  have hcounted : acceptedIn (stepMoments (Cache.empty 1 Nat.one_pos) steps) = 6 ∧
      newcomersIn (stepMoments (Cache.empty 1 Nat.one_pos) steps) = 3 :=
    counted_displacing rfl rfl (by decide +kernel) Digest.ofText_x_ne_ofText_y
  -- From here on the steps do not matter, only how they have been counted.
  clear_value steps
  obtain ⟨⟨hused, hkeys, -, -⟩, ⟨hstore, hstored, hroom, -⟩, htold⟩ :=
    counters_conserved Nat.one_pos ops steps
  exact ⟨Nat.one_pos, hused.trans (by decide), hkeys.trans (by decide), hevictions,
    hstore.trans hcounted.1, hstored.trans hcounted.2, hroom, htold⟩

end Session

end CodeAtlas
