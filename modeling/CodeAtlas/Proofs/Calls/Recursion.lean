import CodeAtlas.Proofs.Calls.Sound

/-!
# Cycles by recursion

`search` is the textbook depth-first search: a name is marked when it is entered, the names that it calls
are gone through in their order, one that has not been entered is searched at once, and one on the path
of the recursion closes a cycle. The scan does the same with a stack of frames in place of the
recursion: a frame and what is pending in it stand for a search that has not returned (`run_suspend`).
Main statement: `cycles_eq_found_search`.
-/

namespace CodeAtlas.CallGraph

variable {g : CallGraph}

/-- What a search has come to know. -/
structure Search where
  /-- The names that have been entered, the last one first. -/
  visited : List Text
  /-- The cycles in the order in which they have been recorded. -/
  found : List (List Text)

namespace Search

/-- Nothing has been entered. -/
def start : Search := ⟨[], []⟩

/-- Marks a name. -/
def enter (s : Search) (name : Text) : Search := { s with visited := name :: s.visited }

/-- Records a cycle. -/
def record (s : Search) (cycle : List Text) : Search := { s with found := s.found ++ [cycle] }

/-- How many callers have not been entered. -/
def unentered (g : CallGraph) (visited : List Text) : Nat :=
  Scan.unbegun g { Scan.start with visited := visited }

/-- No more callers are left if more names have been entered. -/
theorem unentered_le (g : CallGraph) {visited visited' : List Text} (h : visited ⊆ visited') :
    unentered g visited' ≤ unentered g visited := by
  unfold unentered Scan.unbegun
  refine (List.monotone_filter_right g fun e he ↦ ?_).length_le
  have hnew : e.1 ∉ visited' := by simpa using he
  have hold : e.1 ∉ visited := fun hmem ↦ hnew (h hmem)
  simpa using hold

/-- A caller that is entered is not left any more. -/
theorem unentered_lt {visited : List Text} {name : Text} (h : name ∉ visited)
    (hcalls : g.callees name ≠ []) : unentered g (name :: visited) < unentered g visited :=
  Scan.unbegun_enter_lt (s := { Scan.start with visited := visited }) h hcalls

/-- Searches the names that the last name of a path calls, from left to right. No mark is lost. -/
def explore (g : CallGraph) (path : List Text) (s : Search) :
    List Text → { t : Search // s.visited ⊆ t.visited }
  | [] => ⟨s, List.Subset.refl _⟩
  | callee :: rest =>
    if _new : callee ∉ s.visited then
      let below := explore g (path ++ [callee]) (s.enter callee) (g.callees callee)
      let after := explore g path below.1 rest
      ⟨after.1, List.Subset.trans (List.subset_cons_self callee _) (List.Subset.trans below.2 after.2)⟩
    else if callee ∈ path then
      let after := explore g path (s.record (path.dropWhile (· ≠ callee))) rest
      ⟨after.1, after.2⟩
    else explore g path s rest
termination_by pending => (unentered g s.visited, pending.length)
decreasing_by
  · by_cases hcalls : g.callees callee = []
    · -- A name that calls nothing has nothing pending.
      have hle := unentered_le g (List.subset_cons_self callee s.visited)
      rcases Nat.lt_or_eq_of_le hle with hlt | heq
      · exact Prod.Lex.left _ _ hlt
      · simp only [enter, heq, hcalls]
        exact Prod.Lex.right _ (Nat.succ_pos _)
    · exact Prod.Lex.left _ _ (unentered_lt _new hcalls)
  · have hle := unentered_le g
      (List.Subset.trans (List.subset_cons_self callee s.visited) below.2)
    rcases Nat.lt_or_eq_of_le hle with hlt | heq
    · exact Prod.Lex.left _ _ hlt
    · rw [heq]
      exact Prod.Lex.right _ (Nat.lt_succ_self _)
  · exact Prod.Lex.right _ (Nat.lt_succ_self _)
  · exact Prod.Lex.right _ (Nat.lt_succ_self _)

/-- What is known after the names that the last name of a path calls have been searched. -/
def follow (g : CallGraph) (path : List Text) (s : Search) (pending : List Text) : Search :=
  (explore g path s pending).1

/-- Searches from a name: the name is marked, and the names that it calls are searched with it at the end
of the path. -/
def visit (g : CallGraph) (path : List Text) (s : Search) (name : Text) : Search :=
  follow g (path ++ [name]) (s.enter name) (g.callees name)

section Follow

variable {path rest : List Text} {s : Search} {callee : Text}

theorem follow_nil (path : List Text) (s : Search) : follow g path s [] = s := by
  rw [follow, explore]

/-- A name that has not been entered is searched before the next one. -/
theorem follow_of_notMem (h : callee ∉ s.visited) :
    follow g path s (callee :: rest) = follow g path (visit g path s callee) rest := by
  rw [follow, explore, dif_pos h]
  rfl

/-- A name on the path closes a cycle. -/
theorem follow_of_mem_path (h : callee ∈ s.visited) (hpath : callee ∈ path) :
    follow g path s (callee :: rest) =
      follow g path (s.record (path.dropWhile (· ≠ callee))) rest := by
  rw [follow, explore, dif_neg (not_not.2 h), if_pos hpath]
  rfl

/-- A name that has been searched before is passed over. -/
theorem follow_of_notMem_path (h : callee ∈ s.visited) (hpath : callee ∉ path) :
    follow g path s (callee :: rest) = follow g path s rest := by
  rw [follow, explore, dif_neg (not_not.2 h), if_neg hpath]
  rfl

theorem subset_visited_visit (g : CallGraph) (path : List Text) (s : Search) (name : Text) :
    name :: s.visited ⊆ (visit g path s name).visited :=
  (explore g (path ++ [name]) (s.enter name) (g.callees name)).2

end Follow

end Search

/-- The search of a whole graph, from each caller in turn that has not been entered. -/
def search (g : CallGraph) : Search :=
  g.callers.foldl (fun s root ↦ if root ∈ s.visited then s else s.visit g [] root) Search.start

/-! ### Frames for the recursion -/

/-- The part of a path from a name on it, whether the path is read from its end or from its start. -/
theorem Scan.cycleFrom_eq_dropWhile {names : List Text} (hnodup : names.Nodup) {name : Text}
    (h : name ∈ names) : cycleFrom names name = names.reverse.dropWhile (· ≠ name) := by
  obtain ⟨rest, hnames⟩ := exists_eq_takeWhile_append h
  have hrest : ∀ x ∈ rest.reverse, x ≠ name := by
    rw [hnames, List.nodup_append, List.nodup_cons] at hnodup
    intro x hx heq
    exact hnodup.2.1.1 (heq ▸ List.mem_reverse.1 hx)
  calc
    cycleFrom names name = name :: (names.takeWhile (· ≠ name)).reverse := by simp [cycleFrom]
    _ = (rest.reverse ++ name :: (names.takeWhile (· ≠ name)).reverse).dropWhile (· ≠ name) := by
      rw [List.dropWhile_append_of_pos (by simpa using hrest), List.dropWhile_cons_of_neg (by simp)]
    _ = names.reverse.dropWhile (· ≠ name) := by
      congr 1
      conv_rhs => rw [hnames]
      simp

namespace Search

/-- A scan that knows what a search knows and has the given frames. -/
def scan (s : Search) (frames : List Frame) : Scan where
  frames := frames
  path := frames.map (·.name)
  onPath := frames.map (·.name)
  visited := s.visited
  found := s.found.reverse

variable {s : Search} {name callee : Text} {rest : List Text} {fs : List Frame}

/-- A frame with nothing pending is a search that returns. -/
theorem turn_return (s : Search) (name : Text) (fs : List Frame) :
    Scan.turn g (s.scan (⟨name, []⟩ :: fs)) = s.scan fs := by
  simp [Scan.turn, scan, Scan.leave]

/-- A name that has not been entered gets a frame of its own. -/
theorem turn_enter (h : callee ∉ s.visited) :
    Scan.turn g (s.scan (⟨name, callee :: rest⟩ :: fs)) =
      (s.enter callee).scan (⟨callee, g.callees callee⟩ :: ⟨name, rest⟩ :: fs) := by
  simp [Scan.turn, scan, Scan.enter, Scan.advance, enter, h]

/-- A name on the path closes the cycle that the search records. -/
theorem turn_record {path : List Text} (hpath : path = (name :: fs.map (·.name)).reverse)
    (hnodup : path.Nodup) (h : callee ∈ s.visited) (hmem : callee ∈ path) :
    Scan.turn g (s.scan (⟨name, callee :: rest⟩ :: fs)) =
      (s.record (path.dropWhile (· ≠ callee))).scan (⟨name, rest⟩ :: fs) := by
  have hnames : callee ∈ name :: fs.map (·.name) := by
    rw [hpath] at hmem
    exact List.mem_reverse.1 hmem
  have hcycle := Scan.cycleFrom_eq_dropWhile (List.nodup_reverse.1 (hpath ▸ hnodup)) hnames
  rw [← hpath] at hcycle
  have honPath : callee = name ∨ ∃ f ∈ fs, f.name = callee := by simpa using hnames
  simp [Scan.turn, scan, Scan.record, Scan.advance, record, h, honPath, hcycle]

/-- A name that has been searched before is passed over. -/
theorem turn_skip (h : callee ∈ s.visited) (hmem : callee ∉ name :: fs.map (·.name)) :
    Scan.turn g (s.scan (⟨name, callee :: rest⟩ :: fs)) = s.scan (⟨name, rest⟩ :: fs) := by
  have honPath : ¬(callee = name ∨ ∃ f ∈ fs, f.name = callee) := by simpa using hmem
  simp [Scan.turn, scan, Scan.advance, h, honPath]

/-- A frame and what is pending in it stand for a search that has not returned: the run goes on as it does
once the search has returned and the frame is gone. -/
theorem run_suspend (path pending : List Text) (s : Search) :
    ∀ name fs, path = (name :: fs.map (·.name)).reverse → path.Nodup → path ⊆ s.visited →
      Scan.run g (s.scan (⟨name, pending⟩ :: fs)) = Scan.run g ((follow g path s pending).scan fs) := by
  induction path, s, pending using explore.induct g with
  | case1 path s =>
    intro name fs hpath hnodup hsub
    rw [follow_nil, ← Scan.run_turn, turn_return]
  | case2 path s callee rest hnew below hbelow hafter =>
    intro name fs hpath hnodup hsub
    have hlonger : path ++ [callee] = (callee :: name :: fs.map (·.name)).reverse := by
      rw [List.reverse_cons, hpath]
    have hlongerNodup : (path ++ [callee]).Nodup :=
      List.nodup_append.2 ⟨hnodup, List.nodup_singleton callee, by
        rintro x hx y hy rfl
        exact hnew (List.mem_singleton.1 hy ▸ hsub hx)⟩
    have hlongerSub : path ++ [callee] ⊆ (s.enter callee).visited := by
      intro x hx
      rcases List.mem_append.1 hx with hx | hx
      · exact List.mem_cons_of_mem callee (hsub hx)
      · exact List.mem_singleton.1 hx ▸ List.mem_cons_self ..
    have hsubBelow : path ⊆ (visit g path s callee).visited := fun x hx ↦
      subset_visited_visit g path s callee (List.mem_cons_of_mem callee (hsub hx))
    rw [follow_of_notMem hnew, ← Scan.run_turn, turn_enter hnew]
    calc
      Scan.run g ((s.enter callee).scan (⟨callee, g.callees callee⟩ :: ⟨name, rest⟩ :: fs)) =
          Scan.run g ((visit g path s callee).scan (⟨name, rest⟩ :: fs)) :=
        hbelow callee (⟨name, rest⟩ :: fs) hlonger hlongerNodup hlongerSub
      _ = Scan.run g ((follow g path (visit g path s callee) rest).scan fs) :=
        hafter name fs hpath hnodup hsubBelow
  | case3 path s callee rest hold hmem ih =>
    intro name fs hpath hnodup hsub
    have hold := not_not.1 hold
    rw [follow_of_mem_path hold hmem, ← Scan.run_turn, turn_record hpath hnodup hold hmem]
    exact ih name fs hpath hnodup hsub
  | case4 path s callee rest hold hmem ih =>
    intro name fs hpath hnodup hsub
    have hold := not_not.1 hold
    have hnames : callee ∉ name :: fs.map (·.name) := by
      rw [hpath] at hmem
      exact fun h ↦ hmem (List.mem_reverse.2 h)
    rw [follow_of_notMem_path hold hmem, ← Scan.run_turn, turn_skip hold hnames]
    exact ih name fs hpath hnodup hsub

/-- Scanning from a caller is searching from it, unless it has been entered. -/
theorem scanFrom_scan (s : Search) (root : Text) :
    Scan.scanFrom g (s.scan []) root =
      (if root ∈ s.visited then s else s.visit g [] root).scan [] := by
  by_cases h : root ∈ s.visited
  · rw [if_pos h]
    exact if_pos h
  · have hsuspended := run_suspend (g := g) [root] (g.callees root) (s.enter root) root [] rfl
      (List.nodup_singleton root) (fun x hx ↦ List.mem_singleton.1 hx ▸ List.mem_cons_self ..)
    rw [if_neg h, Scan.scanFrom, if_neg (show root ∉ (s.scan []).visited from h)]
    exact hsuspended.trans (Scan.run_of_frames_eq_nil rfl)

end Search

/-- The scan of a graph knows in the end what the search knows. -/
theorem scan_eq_scan_search (g : CallGraph) : g.scan = g.search.scan [] := by
  have hfold (roots : List Text) (s : Search) : roots.foldl (Scan.scanFrom g) (s.scan []) =
      (roots.foldl (fun s root ↦ if root ∈ s.visited then s else s.visit g [] root) s).scan [] := by
    induction roots generalizing s with
    | nil => rfl
    | cons root roots ih => rw [List.foldl_cons, Search.scanFrom_scan, ih, List.foldl_cons]
  exact hfold g.callers Search.start

/-- The scan with frames finds what the recursive search records: the same cycles in the same order, each
as often. -/
theorem cycles_eq_found_search (g : CallGraph) : g.cycles = g.search.found := by
  rw [cycles, scan_eq_scan_search]
  exact List.reverse_reverse _

end CodeAtlas.CallGraph
