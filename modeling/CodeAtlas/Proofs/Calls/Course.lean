import CodeAtlas.Proofs.Calls.Complete
import CodeAtlas.Proofs.Calls.Recursion
import Mathlib.Algebra.BigOperators.Group.List.Lemmas
import Mathlib.Algebra.Ring.Nat
import Mathlib.Data.List.Dedup
import Mathlib.Logic.Function.Iterate

/-!
# The course of a scan

`Course.next` takes the scan of a whole graph one step further: a turn of the scan from a root, or,
when that scan has ended, a look at the next root. `course g k` is where the scan stands after `k`
steps. Every state on the way is orderly (`sound_course`), so that a turn whose operations might fail
never does (`Coherent.turn?_eq`). What is left to do goes down by one in every step, whether it
begins a name, follows a call or ends a name (`left_step`); hence the scan ends after exactly
`stepCount g` steps (`done_course_iff`), in the state that `scan g` gives (`scan_of_done`).
-/

namespace CodeAtlas.CallGraph

variable {g : CallGraph}

namespace Scan

variable {s t : Scan}

/-- Every move of a scan is its turn. -/
theorem Move.eq_turn (h : Move g s t) : t = s.turn g := by
  cases h with
  | leave frames => simp only [turn, frames]
  | enter frames fresh => simp only [turn, frames, if_pos fresh]
  | record frames begun pathed =>
    simp only [turn, frames, if_neg (not_not.2 begun), if_pos pathed]
  | skip frames begun ended =>
    simp only [turn, frames, if_neg (not_not.2 begun), if_neg ended]

/-- A turn of a scan that has not ended is one of its moves. -/
theorem move_turn (h : s.frames ≠ []) : Move g s (s.turn g) := by
  rcases hf : s.frames with _ | ⟨⟨name, _ | ⟨callee, rest⟩⟩, fs⟩
  · exact absurd hf h
  · simp only [turn, hf]
    exact .leave hf
  · simp only [turn, hf]
    split
    · next hv => exact .enter hf hv
    · next hv =>
      split
      · next ho => exact .record hf (Decidable.not_not.1 hv) ho
      · next ho => exact .skip hf (Decidable.not_not.1 hv) ho

/-! ### Orderly scans -/

/-- A coherent scan that has begun no name twice and has taken the calls of each name on the path in
their order. -/
structure Orderly (g : CallGraph) (s : Scan) : Prop extends Coherent g s where
  begunOnce : s.visited.Nodup
  lastPending : ∀ f ∈ s.frames, f.pending <:+ g.callees f.name

namespace Orderly

theorem start : Orderly g start where
  toCoherent := .start
  begunOnce := List.nodup_nil
  lastPending _ hf := nomatch hf

/-- A root may be begun on an empty path. -/
theorem enter (h : Orderly g s) (frames : s.frames = []) {root : Text}
    (fresh : root ∉ s.visited) : Orderly g (s.enter g root) where
  toCoherent := h.toCoherent.enter fresh (by simp [h.path_eq, frames])
  begunOnce := List.nodup_cons.2 ⟨fresh, h.begunOnce⟩
  lastPending := by
    intro f hf
    rcases List.mem_cons.1 hf with rfl | hf
    · exact List.suffix_refl _
    · exact h.lastPending f hf

/-- What is pending stays the last part of the calls when the first of it is taken. -/
theorem lastPending_advance (h : Orderly g s) {f : Frame} (hf : f ∈ s.advance.frames) :
    f.pending <:+ g.callees f.name := by
  cases hframes : s.frames with
  | nil =>
    have hsame : s.advance = s := by simp [Scan.advance, hframes]
    exact h.lastPending f (hsame ▸ hf)
  | cons top fs =>
    rw [advance_frames hframes] at hf
    rcases List.mem_cons.1 hf with rfl | hf
    · exact (List.tail_suffix _).trans (h.lastPending top (by simp [hframes]))
    · exact h.lastPending f (by simp [hframes, hf])

/-- Every move keeps a scan orderly. -/
theorem move (h : Orderly g s) (hm : Move g s t) : Orderly g t := by
  apply Orderly.mk (h.toCoherent.move hm)
  · cases hm with
    | leave => exact h.begunOnce
    | enter _ fresh => exact List.nodup_cons.2 ⟨by simpa using fresh, by simpa using h.begunOnce⟩
    | record => simpa [record] using h.begunOnce
    | skip => simpa using h.begunOnce
  · intro f hf
    cases hm with
    | leave => exact h.lastPending f (List.mem_of_mem_tail hf)
    | enter =>
      rcases List.mem_cons.1 hf with rfl | hf
      · exact List.suffix_refl _
      · exact h.lastPending_advance hf
    | record => exact h.lastPending_advance hf
    | skip => exact h.lastPending_advance hf

end Orderly

/-! ### Turns that might fail -/

/-- A turn whose operations might fail: a name is taken off the path if there is one, and the cycle
that a call closes begins at the first place of its callee on the path, if it has one. -/
def turn? (g : CallGraph) (s : Scan) : Option Scan :=
  match s.frames with
  | [] => some s
  | f :: _ =>
    match f.pending with
    | [] => s.path.head?.map fun _ ↦ s.leave f.name
    | callee :: _ =>
      if s.visited.contains callee then
        if s.onPath.contains callee then
          (s.path.reverse.idxOf? callee).map fun place ↦
            { s.advance with found := s.path.reverse.drop place :: s.advance.found }
        else some s.advance
      else some (s.advance.enter g callee)

/-- A name on a path has a first place there, and a recorded cycle is the path from this place on. -/
theorem idxOf?_map_drop {path : List Text} (hnodup : path.Nodup) {name : Text} (h : name ∈ path) :
    (path.reverse.idxOf? name).map path.reverse.drop = some (cycleFrom path name) := by
  have hplace : path.reverse.idxOf? name = some (path.reverse.findIdx (· == name)) :=
    List.findIdx?_eq_some_of_exists ⟨name, List.mem_reverse.2 h, beq_self_eq_true name⟩
  rw [hplace, cycleFrom_eq_dropWhile hnodup h, List.dropWhile_eq_drop_findIdx_not]
  simp [beq_eq_decide]

/-- In a coherent scan nothing fails: a turn finds every name that it looks up. -/
theorem Coherent.turn?_eq (h : Coherent g s) : s.turn? g = some (s.turn g) := by
  rcases hf : s.frames with _ | ⟨⟨name, _ | ⟨callee, rest⟩⟩, fs⟩
  · simp only [turn?, turn, hf]
  · simp only [turn?, turn, hf, h.head?_path hf, Option.map_some]
  · simp only [turn?, turn, hf, List.contains_iff_mem]
    by_cases hv : callee ∈ s.visited
    · rw [if_pos hv, if_neg (not_not.2 hv)]
      by_cases ho : callee ∈ s.onPath
      · have hplace := idxOf?_map_drop h.nodup (h.onPath_eq ▸ ho)
        obtain ⟨place, hp, hcycle⟩ := Option.map_eq_some_iff.1 hplace
        rw [if_pos ho, if_pos ho, hp, Option.map_some, hcycle, Scan.record, advance_path]
      · rw [if_neg ho, if_neg ho]
    · rw [if_neg hv, if_pos hv]

end Scan

/-! ### The steps of the whole scan -/

/-- How far the scan of a whole graph has come. -/
structure Course where
  /-- The callers that have not been looked at. -/
  roots : List Text
  /-- The state of the scan. -/
  scan : Scan
  deriving DecidableEq

namespace Course

/-- No caller has been looked at. -/
def start (g : CallGraph) : Course := ⟨g.callers, Scan.start⟩

/-- Nothing is left to do. -/
def Done (c : Course) : Prop := c.scan.frames = [] ∧ c.roots = []

instance (c : Course) : Decidable c.Done := inferInstanceAs (Decidable (_ ∧ _))

/-- One step: a turn of the scan, or a look at the next root if the scan has ended. -/
def next (g : CallGraph) (c : Course) : Course :=
  match c.scan.frames, c.roots with
  | [], [] => c
  | [], root :: rest =>
    ⟨rest, if c.scan.visited.contains root then c.scan else c.scan.enter g root⟩
  | _ :: _, roots => ⟨roots, c.scan.turn g⟩

/-- What one step can do. -/
inductive Step (g : CallGraph) (c : Course) : Course → Prop
  /-- Nothing is left to do. -/
  | rest (done : c.Done) : Step g c c
  /-- The next root has been begun before. -/
  | pass {root : Text} {rest : List Text} (frames : c.scan.frames = [])
      (roots : c.roots = root :: rest) (begun : root ∈ c.scan.visited) : Step g c ⟨rest, c.scan⟩
  /-- The next root is begun. -/
  | enter {root : Text} {rest : List Text} (frames : c.scan.frames = [])
      (roots : c.roots = root :: rest) (fresh : root ∉ c.scan.visited) :
      Step g c ⟨rest, c.scan.enter g root⟩
  /-- The scan from the last root goes on. -/
  | turn {t : Scan} (move : Scan.Move g c.scan t) : Step g c ⟨c.roots, t⟩

theorem step_next (g : CallGraph) (c : Course) : Step g c (c.next g) := by
  unfold next
  split
  · next hf hr => exact .rest ⟨hf, hr⟩
  · next root rest hf hr =>
    simp only [List.contains_iff_mem]
    by_cases hv : root ∈ c.scan.visited
    · rw [if_pos hv]
      exact .pass hf hr hv
    · rw [if_neg hv]
      exact .enter hf hr hv
  · next f fs hf => exact .turn (Scan.move_turn (by simp [hf]))

end Course

/-- Where the scan of a graph stands after some steps. -/
def course (g : CallGraph) (k : Nat) : Course := (Course.next g)^[k] (Course.start g)

theorem course_succ (g : CallGraph) (k : Nat) : g.course (k + 1) = (g.course k).next g :=
  Function.iterate_succ_apply' ..

theorem step_course (g : CallGraph) (k : Nat) : (g.course k).Step g (g.course (k + 1)) := by
  rw [course_succ]
  exact Course.step_next g _

/-- The names of a graph, callers and callees, each of them once. -/
def names (g : CallGraph) : List Text := (g.callers ++ g.callers.flatMap g.callees).dedup

theorem mem_names_iff {x : Text} : x ∈ g.names ↔ x ∈ g.callers ∨ ∃ a, g.Calls a x := by
  rw [names, List.mem_dedup, List.mem_append, List.mem_flatMap]
  constructor
  · rintro (h | ⟨a, -, h⟩)
    · exact .inl h
    · exact .inr ⟨a, h⟩
  · rintro (h | ⟨a, h⟩)
    · exact .inl h
    · exact .inr ⟨a, h.mem_callers, h⟩

namespace Course

variable {c d : Course}

/-- The scan is orderly, and no roots or names come from anywhere but the graph. -/
structure Sound (g : CallGraph) (c : Course) : Prop where
  orderly : c.scan.Orderly g
  roots : c.roots ⊆ g.callers
  named : c.scan.visited ⊆ g.names

namespace Sound

theorem start : Sound g (start g) where
  orderly := .start
  roots := List.Subset.refl _
  named := List.nil_subset _

/-- The next root is a name of the graph. -/
theorem root_mem_names (h : Sound g c) {root : Text} {rest : List Text}
    (roots : c.roots = root :: rest) : root ∈ g.names :=
  mem_names_iff.2 (.inl (h.roots (by simp [roots])))

/-- A call that is pending in the last frame leads to a name of the graph. -/
theorem callee_mem_names (h : Sound g c) {f : Frame} {fs : List Frame}
    (frames : c.scan.frames = f :: fs) {x : Text} (hx : x ∈ f.pending) : x ∈ g.names :=
  mem_names_iff.2 (.inr ⟨f.name, h.orderly.calls_of_pending frames hx⟩)

theorem named_of_move (h : Sound g c) {t : Scan} (hm : Scan.Move g c.scan t) :
    t.visited ⊆ g.names := by
  cases hm with
  | leave => exact h.named
  | enter hf =>
    apply List.cons_subset.2
    exact ⟨h.callee_mem_names hf (List.mem_cons_self ..), by simpa using h.named⟩
  | record => simpa [Scan.record] using h.named
  | skip => simpa using h.named

/-- Every step keeps a course sound. -/
theorem step (h : Sound g c) (hs : Step g c d) : Sound g d := by
  cases hs with
  | rest => exact h
  | pass _ roots =>
    exact ⟨h.orderly, List.Subset.trans (by simp [roots]) h.roots, h.named⟩
  | enter frames roots fresh =>
    apply Sound.mk (h.orderly.enter frames fresh)
    · exact List.Subset.trans (by simp [roots]) h.roots
    · exact List.cons_subset.2 ⟨h.root_mem_names roots, h.named⟩
  | turn move => exact ⟨h.orderly.move move, h.roots, h.named_of_move move⟩

end Sound

end Course

/-- The course of a scan is sound at every step. -/
theorem sound_course (g : CallGraph) (k : Nat) : (g.course k).Sound g := by
  induction k with
  | zero => exact .start
  | succ k ih => exact ih.step (step_course g k)

/-! ### Where the course ends -/

namespace Course

variable {c d : Course}

/-- The state in which the scan ends: the scan from the last root and those from the roots that have
not been looked at. -/
def outcome (g : CallGraph) (c : Course) : Scan :=
  c.roots.foldl (Scan.scanFrom g) (Scan.run g c.scan)

/-- A step does not change where the scan ends. -/
theorem outcome_step (hs : Step g c d) : d.outcome g = c.outcome g := by
  cases hs with
  | rest => rfl
  | pass frames roots begun =>
    rw [outcome, outcome, roots, List.foldl_cons, Scan.run_of_frames_eq_nil frames, Scan.scanFrom,
      if_pos begun]
  | enter frames roots fresh =>
    rw [outcome, outcome, roots, List.foldl_cons, Scan.run_of_frames_eq_nil frames, Scan.scanFrom,
      if_neg fresh]
  | turn move => rw [outcome, outcome, move.eq_turn, Scan.run_turn]

end Course

theorem outcome_course (g : CallGraph) (k : Nat) : (g.course k).outcome g = g.scan := by
  induction k with
  | zero =>
    show g.callers.foldl (Scan.scanFrom g) (Scan.run g Scan.start) = g.scan
    rw [Scan.run_of_frames_eq_nil rfl, scan]
  | succ k ih => rw [Course.outcome_step (step_course g k), ih]

/-- When nothing is left to do, the scan is the one of the whole graph. -/
theorem scan_of_done {k : Nat} (h : (g.course k).Done) : (g.course k).scan = g.scan := by
  rw [← outcome_course g k, Course.outcome, h.2, Scan.run_of_frames_eq_nil h.1, List.foldl_nil]

/-! ### How many steps there are -/

/-- The steps that a name takes: one for each of its calls and one to end it. -/
def effort (g : CallGraph) (name : Text) : Nat := (g.callees name).length + 1

/-- The steps that the names which have not been begun will take. -/
def effortLeft (g : CallGraph) (visited : List Text) : Nat :=
  ((g.names.filter fun x ↦ !visited.contains x).map g.effort).sum

/-- A name that is begun takes its steps out of those of the names that have not been begun. -/
theorem effortLeft_cons {visited : List Text} {name : Text} (hname : name ∈ g.names)
    (fresh : name ∉ visited) :
    g.effortLeft visited = g.effort name + g.effortLeft (name :: visited) := by
  have hnodup (v : List Text) : (g.names.filter fun x ↦ !v.contains x).Nodup :=
    (List.nodup_dedup _).filter _
  have hgone : name ∉ g.names.filter fun x ↦ !(name :: visited).contains x := by simp
  have hperm : (g.names.filter fun x ↦ !visited.contains x).Perm
      (name :: g.names.filter fun x ↦ !(name :: visited).contains x) := by
    apply (List.perm_ext_iff_of_nodup (hnodup visited)
      (List.nodup_cons.2 ⟨hgone, hnodup (name :: visited)⟩)).2
    intro x
    by_cases hx : x = name
    · simp [hx, hname, fresh]
    · simp [hx]
  exact (hperm.map g.effort).sum_eq

namespace Course

variable {c d : Course}

/-- The steps that are left: one for each root, one for each pending call and each name to be ended,
and those of the names that have not been begun. -/
def left (g : CallGraph) (c : Course) : Nat :=
  c.roots.length + (c.scan.frames.map fun f ↦ f.pending.length + 1).sum +
    g.effortLeft c.scan.visited

/-- A move takes one step. -/
theorem left_move (h : Sound g c) {t : Scan} (hm : Scan.Move g c.scan t) :
    left g ⟨c.roots, t⟩ + 1 = left g c := by
  cases hm with
  | leave hf =>
    simp only [left, Scan.leave, hf, List.tail_cons, List.map_cons, List.sum_cons,
      List.length_nil]
    omega
  | enter hf fresh =>
    -- What the callee takes is counted in its frame from now on.
    have heffort := effortLeft_cons (h.callee_mem_names hf (List.mem_cons_self ..)) fresh
    simp only [left, Scan.enter, Scan.advance_visited, Scan.advance_frames hf, hf, heffort, effort,
      List.tail_cons, List.map_cons, List.sum_cons, List.length_cons]
    omega
  | record hf =>
    simp only [left, Scan.record, Scan.advance_visited, Scan.advance_frames hf, hf,
      List.tail_cons, List.map_cons, List.sum_cons, List.length_cons]
    omega
  | skip hf =>
    simp only [left, Scan.advance_visited, Scan.advance_frames hf, hf,
      List.tail_cons, List.map_cons, List.sum_cons, List.length_cons]
    omega

/-- Unless nothing is left to do, a step leaves one step less. -/
theorem left_step (h : Sound g c) (hs : Step g c d) (hdone : ¬ c.Done) :
    d.left g + 1 = c.left g := by
  cases hs with
  | rest done => exact absurd done hdone
  | pass frames roots =>
    simp only [left, frames, roots, List.map_nil, List.sum_nil, List.length_cons]
    omega
  | enter frames roots fresh =>
    have heffort := effortLeft_cons (h.root_mem_names roots) fresh
    simp only [left, Scan.enter, frames, roots, heffort, effort, List.map_cons, List.map_nil,
      List.sum_cons, List.sum_nil, List.length_cons]
    omega
  | turn move => exact left_move h move

end Course

/-- How many steps the scan of a graph takes: one for each caller as a root, and for each name one to
end it and one for each of its calls. -/
def stepCount (g : CallGraph) : Nat := g.callers.length + (g.names.map g.effort).sum

theorem left_start (g : CallGraph) : (Course.start g).left g = g.stepCount := by
  simp [Course.left, Course.start, Scan.start, effortLeft, stepCount]

/-- The whole scan begins every name of the graph. -/
theorem names_subset_visited_scan (g : CallGraph) : g.names ⊆ g.scan.visited := by
  intro x hx
  rcases mem_names_iff.1 hx with hx | ⟨a, ha⟩
  · exact mem_visited_scan hx
  · exact Calls.mem_visited_scan ha (mem_visited_scan ha.mem_callers)

theorem left_of_done {k : Nat} (h : (g.course k).Done) : (g.course k).left g = 0 := by
  have hall : (g.names.filter fun x ↦ !(g.course k).scan.visited.contains x) = [] := by
    apply List.filter_eq_nil_iff.2
    intro x hx
    simpa [scan_of_done h] using names_subset_visited_scan g hx
  rw [Course.left, effortLeft, hall, h.1, h.2]
  rfl

theorem left_course (g : CallGraph) (k : Nat) : (g.course k).left g = g.stepCount - k := by
  induction k with
  | zero => exact left_start g
  | succ k ih =>
    by_cases hdone : (g.course k).Done
    · -- The course rests, and nothing was left before.
      have hzero := left_of_done hdone
      have hsame : g.course (k + 1) = g.course k := by
        rw [course_succ, Course.next, hdone.1, hdone.2]
      rw [hsame]
      omega
    · have hstep := Course.left_step (sound_course g k) (step_course g k) hdone
      omega

/-- The scan ends after as many steps as are counted, and not before. -/
theorem done_course_iff (g : CallGraph) (k : Nat) : (g.course k).Done ↔ g.stepCount ≤ k := by
  have hleft := left_course g k
  constructor
  · intro hdone
    have hzero := left_of_done hdone
    omega
  · intro hle
    by_contra hdone
    have hstep := Course.left_step (sound_course g k) (step_course g k) hdone
    omega

end CodeAtlas.CallGraph
