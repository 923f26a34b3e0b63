import CodeAtlas.Inventory.Basic

/-!
# Cycles of calls

`CallGraph.cycles` scans a call graph depth first and records a cycle whenever a call leads back to a
name on the path: the names from there to the caller. The scan keeps the names that have been begun
on a stack of frames, each with the calls that have not been followed yet, so that the depth of the
graph does not matter. `Scan.run` ends because each step follows a call, ends a name or begins a
caller that had not been begun, by `unbegun_enter_lt`.
-/

namespace CodeAtlas

namespace CallGraph

/-- A name that has been begun, with its calls that have not been followed. -/
structure Frame where
  name : Text
  pending : List Text
  deriving DecidableEq

/-- The state of a scan. -/
structure Scan where
  /-- The names that have been begun and not ended, the last one first. -/
  frames : List Frame
  /-- The same names as a path, the last one first. -/
  path : List Text
  /-- The same names as a set. -/
  onPath : List Text
  /-- The names that have been begun. -/
  visited : List Text
  /-- The cycles so far, the last one first. -/
  found : List (List Text)
  deriving DecidableEq

namespace Scan

/-- Nothing has been begun. -/
def start : Scan := ⟨[], [], [], [], []⟩

/-- Begins a name. -/
def enter (g : CallGraph) (s : Scan) (name : Text) : Scan where
  frames := ⟨name, g.callees name⟩ :: s.frames
  path := name :: s.path
  onPath := name :: s.onPath
  visited := name :: s.visited
  found := s.found

/-- Ends the name that was begun last. -/
def leave (s : Scan) (name : Text) : Scan :=
  { s with frames := s.frames.tail, path := s.path.tail, onPath := s.onPath.erase name }

/-- Notes that the first call of the last name is being followed. -/
def advance (s : Scan) : Scan :=
  match s.frames with
  | [] => s
  | f :: fs => { s with frames := { f with pending := f.pending.tail } :: fs }

/-- The part of a path from a name on it to its end. -/
def cycleFrom (path : List Text) (name : Text) : List Text :=
  (path.takeWhile (· ≠ name) ++ [name]).reverse

/-- Records the cycle that a call back to a name closes. -/
def record (s : Scan) (name : Text) : Scan :=
  { s with found := cycleFrom s.path name :: s.found }

/-- How many callers have not been begun. -/
def unbegun (g : CallGraph) (s : Scan) : Nat := (g.filter (fun e ↦ e.1 ∉ s.visited)).length

/-- How many calls and names of the frames are left. -/
def remaining (s : Scan) : Nat := s.frames.foldr (fun f n ↦ 2 * f.pending.length + 1 + n) 0

/-- Beginning a name takes it out of the callers to begin. -/
theorem unbegun_enter (g : CallGraph) (s : Scan) (name : Text) :
    unbegun g (s.enter g name) =
      ((g.filter (fun e ↦ e.1 ∉ s.visited)).filter (fun e ↦ e.1 ≠ name)).length := by
  unfold unbegun
  rw [List.filter_filter]
  congr 2
  funext e
  simp [enter]

/-- Beginning a caller for the first time leaves fewer to begin. -/
theorem unbegun_enter_lt {g : CallGraph} {s : Scan} {name : Text} (h : name ∉ s.visited)
    (hc : g.callees name ≠ []) : unbegun g (s.enter g name) < unbegun g s := by
  have hmem : ∃ v, (name, v) ∈ g := by
    unfold callees at hc
    clear h
    induction g with
    | nil => exact absurd rfl hc
    | cons e es ih =>
      obtain ⟨k, v⟩ := e
      by_cases hk : k = name
      · exact ⟨v, hk ▸ .head _⟩
      · simp only [Members.get?, if_neg hk] at hc
        obtain ⟨w, hw⟩ := ih hc
        exact ⟨w, .tail _ hw⟩
  obtain ⟨v, hv⟩ := hmem
  rw [unbegun_enter]
  apply List.length_filter_lt_length_iff_exists.2
  exact ⟨(name, v), List.mem_filter.2 ⟨hv, by simpa using h⟩, by simp⟩

/-- Follows calls until every name that has been begun has ended. -/
def run (g : CallGraph) (s : Scan) : Scan :=
  match _frames : s.frames with
  | [] => s
  | ⟨name, []⟩ :: _ => run g (s.leave name)
  | ⟨_, callee :: _⟩ :: _ =>
    if callee ∉ s.visited then run g (s.advance.enter g callee)
    else if callee ∈ s.onPath then run g (s.advance.record callee)
    else run g s.advance
termination_by (unbegun g s, remaining s)
decreasing_by
  · apply Prod.Lex.right
    simp [remaining, leave, _frames]
  next hv =>
    have hadv : (s.advance).visited = s.visited := by simp [advance, _frames]
    by_cases hc : g.callees callee = []
    · have hle : unbegun g (s.advance.enter g callee) ≤ unbegun g s := by
        rw [unbegun_enter, hadv]
        exact List.length_filter_le _ _
      rcases Nat.lt_or_eq_of_le hle with hlt | heq
      · exact Prod.Lex.left _ _ hlt
      · rw [heq]
        apply Prod.Lex.right
        simp only [remaining, enter, advance, _frames, hc, List.foldr_cons,
          List.length_nil, List.tail_cons, List.length_cons]
        omega
    · apply Prod.Lex.left
      have : unbegun g s = unbegun g s.advance := by simp [unbegun, hadv]
      rw [this]
      exact unbegun_enter_lt (by simpa [hadv] using hv) hc
  · have : unbegun g (s.advance.record callee) = unbegun g s := by
      simp [unbegun, record, advance, _frames]
    rw [this]
    apply Prod.Lex.right
    simp only [remaining, record, advance, _frames, List.foldr_cons, List.tail_cons,
      List.length_cons]
    omega
  · have : unbegun g s.advance = unbegun g s := by simp [unbegun, advance, _frames]
    rw [this]
    apply Prod.Lex.right
    simp only [remaining, advance, _frames, List.foldr_cons, List.tail_cons,
      List.length_cons]
    omega

/-- One turn of a run. A scan that has ended stays as it is. -/
def turn (g : CallGraph) (s : Scan) : Scan :=
  match s.frames with
  | [] => s
  | f :: _ =>
    match f.pending with
    | [] => s.leave f.name
    | callee :: _ =>
      if callee ∉ s.visited then s.advance.enter g callee
      else if callee ∈ s.onPath then s.advance.record callee
      else s.advance

/-- Scans from one caller, unless it has been begun. -/
def scanFrom (g : CallGraph) (s : Scan) (root : Text) : Scan :=
  if root ∈ s.visited then s else run g (s.enter g root)

end Scan

/-- The scan of a whole graph, from each caller in turn. -/
def scan (g : CallGraph) : Scan := g.callers.foldl (Scan.scanFrom g) Scan.start

/-- The cycles that a scan finds, in the order in which it finds them. -/
def cycles (g : CallGraph) : List (List Text) := g.scan.found.reverse

/-- Whether a scan finds a cycle. -/
def hasCycle (g : CallGraph) : Bool := !g.cycles.isEmpty

end CallGraph

end CodeAtlas
