import CodeAtlas.Calls.Cycles
import Mathlib.Data.List.Chain

/-!
# The moves of a scan

`Scan.Move` lists what one turn of `Scan.run` can do. What every move keeps, a run keeps
(`run_invariant`), and what is kept from one root to the next holds of the whole scan
(`scan_invariant`). `Scan.Coherent` is the invariant that ties the frames, the path and the names on
it together: the path is a chain of calls without repetition, and what is pending in a frame is
called by its name.
-/

namespace CodeAtlas.CallGraph

variable {g : CallGraph}

/-- `g.Calls a b` says that `a` calls `b`. -/
def Calls (g : CallGraph) (a b : Text) : Prop := b ∈ g.callees a

/-- Whoever calls is a caller. -/
theorem Calls.mem_callers {a b : Text} (h : g.Calls a b) : a ∈ g.callers := by
  induction g with
  | nil => simp [Calls, callees, Members.get?] at h
  | cons e es ih =>
    obtain ⟨k, v⟩ := e
    by_cases hk : k = a
    · simp [callers, hk]
    · have ht : Calls es a b := by simpa [Calls, callees, Members.get?, hk] using h
      exact List.mem_cons_of_mem _ (ih ht)

namespace Scan

/-! ### One turn of the loop -/

/-- What one turn of a run can do. -/
inductive Move (g : CallGraph) (s : Scan) : Scan → Prop
  /-- All calls of the last name have been followed. -/
  | leave {name : Text} {fs : List Frame} (frames : s.frames = ⟨name, []⟩ :: fs) :
      Move g s (s.leave name)
  /-- A call leads to a name that has not been begun. -/
  | enter {name callee : Text} {rest : List Text} {fs : List Frame}
      (frames : s.frames = ⟨name, callee :: rest⟩ :: fs) (fresh : callee ∉ s.visited) :
      Move g s (s.advance.enter g callee)
  /-- A call leads back to a name on the path. -/
  | record {name callee : Text} {rest : List Text} {fs : List Frame}
      (frames : s.frames = ⟨name, callee :: rest⟩ :: fs) (begun : callee ∈ s.visited)
      (pathed : callee ∈ s.onPath) : Move g s (s.advance.record callee)
  /-- A call leads to a name that has ended. -/
  | skip {name callee : Text} {rest : List Text} {fs : List Frame}
      (frames : s.frames = ⟨name, callee :: rest⟩ :: fs) (begun : callee ∈ s.visited)
      (ended : callee ∉ s.onPath) : Move g s s.advance

section Advance

variable {s : Scan}

@[simp] theorem advance_path : s.advance.path = s.path := by
  unfold advance
  split <;> rfl

@[simp] theorem advance_onPath : s.advance.onPath = s.onPath := by
  unfold advance
  split <;> rfl

@[simp] theorem advance_visited : s.advance.visited = s.visited := by
  unfold advance
  split <;> rfl

@[simp] theorem advance_found : s.advance.found = s.found := by
  unfold advance
  split <;> rfl

theorem advance_frames {f : Frame} {fs : List Frame} (h : s.frames = f :: fs) :
    s.advance.frames = { f with pending := f.pending.tail } :: fs := by
  simp [advance, h]

end Advance

/-- A property that every move keeps is kept by a run. -/
theorem run_invariant {P : Scan → Prop} (move : ∀ s t, P s → Move g s t → P t) {s : Scan}
    (h : P s) : P (run g s) := by
  fun_induction run g s with
  | case1 s hf => exact h
  | case2 s name fs hf ih => exact ih (move _ _ h (.leave hf))
  | case3 s name callee rest fs hf hv ih => exact ih (move _ _ h (.enter hf hv))
  | case4 s name callee rest fs hf hv ho ih =>
    exact ih (move _ _ h (.record hf (Decidable.not_not.1 hv) ho))
  | case5 s name callee rest fs hf hv ho ih =>
    exact ih (move _ _ h (.skip hf (Decidable.not_not.1 hv) ho))

/-- A run ends when every name has ended. -/
theorem run_frames (s : Scan) : (run g s).frames = [] := by
  fun_induction run g s with
  | case1 s hf => exact hf
  | case2 s name fs hf ih => exact ih
  | case3 s name callee rest fs hf hv ih => exact ih
  | case4 s name callee rest fs hf hv ho ih => exact ih
  | case5 s name callee rest fs hf hv ho ih => exact ih

/-- A scan that has ended runs no further. -/
theorem run_of_frames_eq_nil {s : Scan} (h : s.frames = []) : run g s = s := by
  fun_cases run g s with
  | case1 hf => rfl
  | case2 name fs hf => simp [h] at hf
  | case3 name callee rest fs hf => simp [h] at hf
  | case4 name callee rest fs hf => simp [h] at hf
  | case5 name callee rest fs hf => simp [h] at hf

/-- A run goes on after its first turn. -/
theorem run_turn (g : CallGraph) (s : Scan) : run g (turn g s) = run g s := by
  fun_cases run g s with
  | case1 hf =>
    simp only [turn, hf]
    exact run_of_frames_eq_nil hf
  | case2 name fs hf => simp only [turn, hf]
  | case3 name callee rest fs hf hv => simp only [turn, hf, if_pos hv]
  | case4 name callee rest fs hf hv ho => simp only [turn, hf, if_neg hv, if_pos ho]
  | case5 name callee rest fs hf hv ho => simp only [turn, hf, if_neg hv, if_neg ho]

/-- A run is as many turns as it takes to end. -/
theorem run_eq_iterate_turn {s : Scan} (n : Nat) (h : ((turn g)^[n] s).frames = []) :
    run g s = (turn g)^[n] s := by
  induction n generalizing s with
  | zero => exact run_of_frames_eq_nil h
  | succ n ih =>
    rw [← run_turn]
    exact ih h

/-- A name that has been begun stays so. -/
theorem mem_visited_run {s : Scan} {x : Text} (h : x ∈ s.visited) : x ∈ (run g s).visited := by
  apply run_invariant (P := fun t ↦ x ∈ t.visited) _ h
  intro s t hs hm
  cases hm with
  | leave => exact hs
  | enter => exact List.mem_cons_of_mem _ (by simpa using hs)
  | record => simpa [record] using hs
  | skip => simpa using hs

/-- Scanning from a root begins it. -/
theorem root_mem_visited (s : Scan) (root : Text) : root ∈ (scanFrom g s root).visited := by
  unfold scanFrom
  split
  · next h => exact h
  · exact mem_visited_run (List.mem_cons_self ..)

/-- Scanning from a root loses no name that has been begun. -/
theorem mem_visited_scanFrom {s : Scan} {x : Text} (root : Text) (h : x ∈ s.visited) :
    x ∈ (scanFrom g s root).visited := by
  unfold scanFrom
  split
  · exact h
  · exact mem_visited_run (List.mem_cons_of_mem _ h)

/-! ### The path -/

/-- The frames, the path and the names on the path agree, and follow calls. -/
structure Coherent (g : CallGraph) (s : Scan) : Prop where
  path_eq : s.path = s.frames.map (·.name)
  onPath_eq : s.onPath = s.path
  nodup : s.path.Nodup
  begun : ∀ x ∈ s.path, x ∈ s.visited
  chain : s.path.IsChain fun a b ↦ g.Calls b a
  pending : ∀ f ∈ s.frames, ∀ x ∈ f.pending, g.Calls f.name x

namespace Coherent

variable {s : Scan}

theorem start : Coherent g start := by
  constructor <;> simp [Scan.start]

/-- The name of the last frame comes first on the path. -/
theorem path_cons (h : Coherent g s) {f : Frame} {fs : List Frame} (frames : s.frames = f :: fs) :
    s.path = f.name :: fs.map (·.name) := by
  rw [h.path_eq, frames]
  rfl

/-- The name of the last frame is the last name of the path. -/
theorem head?_path (h : Coherent g s) {f : Frame} {fs : List Frame} (frames : s.frames = f :: fs) :
    s.path.head? = some f.name := by
  rw [h.path_cons frames]
  rfl

/-- A call that is pending in the last frame is one of the last name of the path. -/
theorem calls_of_pending (h : Coherent g s) {f : Frame} {fs : List Frame}
    (frames : s.frames = f :: fs) {x : Text} (hx : x ∈ f.pending) : g.Calls f.name x :=
  h.pending f (by simp [frames]) x hx

theorem advance (h : Coherent g s) : Coherent g s.advance := by
  cases hf : s.frames with
  | nil =>
    have he : s.advance = s := by simp [Scan.advance, hf]
    rw [he]
    exact h
  | cons f fs =>
    have hframes := advance_frames hf
    refine ⟨?_, by simpa using h.onPath_eq, by simpa using h.nodup, by simpa using h.begun,
      by simpa using h.chain, ?_⟩
    · rw [advance_path, h.path_eq, hframes, hf]
      rfl
    · intro f' hf' x hx
      rw [hframes] at hf'
      rcases List.mem_cons.1 hf' with rfl | hf'
      · exact h.calls_of_pending hf (List.mem_of_mem_tail hx)
      · exact h.pending f' (by simp [hf, hf']) x hx

/-- A new name may be begun if the last name of the path, if there is one, calls it. -/
theorem enter (h : Coherent g s) {name : Text} (fresh : name ∉ s.visited)
    (called : ∀ top ∈ s.path.head?, g.Calls top name) : Coherent g (s.enter g name) := by
  refine ⟨?_, ?_, ?_, ?_, ?_, ?_⟩
  · simp [Scan.enter, h.path_eq]
  · simp [Scan.enter, h.onPath_eq]
  · exact List.nodup_cons.2 ⟨fun hm ↦ fresh (h.begun _ hm), h.nodup⟩
  · intro x hx
    rcases List.mem_cons.1 hx with rfl | hx
    · exact List.mem_cons_self ..
    · exact List.mem_cons_of_mem _ (h.begun x hx)
  · exact h.chain.cons called
  · intro f hf x hx
    rcases List.mem_cons.1 hf with rfl | hf
    · exact hx
    · exact h.pending f hf x hx

theorem leave (h : Coherent g s) {name : Text} {fs : List Frame}
    (frames : s.frames = ⟨name, []⟩ :: fs) : Coherent g (s.leave name) := by
  have hpath := h.path_cons frames
  refine ⟨?_, ?_, ?_, ?_, h.chain.tail, ?_⟩
  · simp [Scan.leave, frames, hpath]
  · simp [Scan.leave, h.onPath_eq, hpath]
  · exact h.nodup.sublist (List.tail_sublist _)
  · exact fun x hx ↦ h.begun x (List.mem_of_mem_tail hx)
  · exact fun f hf ↦ h.pending f (List.mem_of_mem_tail hf)

theorem record (h : Coherent g s) (callee : Text) : Coherent g (s.record callee) :=
  ⟨h.path_eq, h.onPath_eq, h.nodup, h.begun, h.chain, h.pending⟩

/-- Every move keeps frames and path in agreement. -/
theorem move {t : Scan} (h : Coherent g s) (hm : Move g s t) : Coherent g t := by
  cases hm with
  | leave frames => exact h.leave frames
  | enter frames fresh =>
    apply h.advance.enter (by simpa using fresh)
    intro top htop
    rw [advance_path, h.head?_path frames] at htop
    cases htop
    exact h.calls_of_pending frames (List.mem_cons_self ..)
  | record => exact h.advance.record _
  | skip => exact h.advance

end Coherent

end Scan

/-! ### The whole scan -/

/-- What holds at the start and is kept by beginning a root on an empty path and by every move holds
whenever a root has been finished, whichever roots there are. No name is on the path then. -/
theorem foldl_scanFrom_invariant {P : Scan → Prop} (start : P Scan.start)
    (root : ∀ s r, s.Coherent g → P s → s.frames = [] → r ∉ s.visited → P (s.enter g r))
    (move : ∀ s t, s.Coherent g → P s → Scan.Move g s t → P t) (roots : List Text) :
    (roots.foldl (Scan.scanFrom g) Scan.start).Coherent g ∧
      P (roots.foldl (Scan.scanFrom g) Scan.start) ∧
      (roots.foldl (Scan.scanFrom g) Scan.start).frames = [] := by
  apply List.foldlRecOn (motive := fun s : Scan ↦ s.Coherent g ∧ P s ∧ s.frames = []) roots _
    ⟨Scan.Coherent.start, start, rfl⟩
  intro s ⟨hc, hp, hf⟩ r _
  unfold Scan.scanFrom
  split
  · exact ⟨hc, hp, hf⟩
  · next hr =>
    have hpath : s.path = [] := by rw [hc.path_eq, hf]; rfl
    have hstep (t u : Scan) (ht : t.Coherent g ∧ P t) (hm : Scan.Move g t u) :
        u.Coherent g ∧ P u := ⟨ht.1.move hm, move t u ht.1 ht.2 hm⟩
    have hrun := Scan.run_invariant hstep
      ⟨hc.enter hr (by simp [hpath]), root s r hc hp hf hr⟩
    exact ⟨hrun.1, hrun.2, Scan.run_frames _⟩

/-- What holds at the start and is kept by beginning a root on an empty path and by every move holds
of the whole scan. Every state on the way is coherent. -/
theorem scan_invariant {P : Scan → Prop} (start : P Scan.start)
    (root : ∀ s r, s.Coherent g → P s → s.frames = [] → r ∉ s.visited → P (s.enter g r))
    (move : ∀ s t, s.Coherent g → P s → Scan.Move g s t → P t) : P g.scan ∧ g.scan.path = [] := by
  obtain ⟨hc, hp, hf⟩ := foldl_scanFrom_invariant start root move g.callers
  exact ⟨hp, by rw [scan, hc.path_eq, hf]; rfl⟩

/-- The scan begins every caller. -/
theorem mem_visited_scan {x : Text} (h : x ∈ g.callers) : x ∈ g.scan.visited := by
  have all (roots : List Text) (s : Scan) (hx : x ∈ roots ∨ x ∈ s.visited) :
      x ∈ (roots.foldl (Scan.scanFrom g) s).visited := by
    induction roots generalizing s with
    | nil => simpa using hx
    | cons r rs ih =>
      apply ih
      rcases hx with hx | hx
      · rcases List.mem_cons.1 hx with rfl | hx
        · exact .inr (Scan.root_mem_visited s x)
        · exact .inl hx
      · exact .inr (Scan.mem_visited_scanFrom r hx)
  exact all g.callers Scan.start (.inl h)

end CodeAtlas.CallGraph
