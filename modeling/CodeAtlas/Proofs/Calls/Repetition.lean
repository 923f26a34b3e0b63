import CodeAtlas.Proofs.Calls.Recursion
import Mathlib.Algebra.BigOperators.Group.List.Lemmas
import Mathlib.Algebra.Ring.Nat
import Mathlib.Data.List.Count
import Mathlib.Data.List.Perm.Subperm

/-!
# Calls that are made more than once

A name may call another one several times, and the calls are followed at different moments of a search.
Still they are all treated alike: the path to the caller is the same whenever one of them is followed, so
either each of them closes the same cycle or none closes any. `closures` says what the calls of a name
close, given the path on which the name has been entered; by `exists_closing_eq_closures` every name has
such a path. Main statement: `closing_cycles_all_or_none`.
-/

namespace CodeAtlas.CallGraph

variable {g : CallGraph}

/-- The cycles among several that a call closes. -/
def closing (cs : List (List Text)) (caller callee : Text) : List (List Text) :=
  cs.filter fun c ↦ Closes c caller callee

/-- The cycles that the pending calls of the last name of a path close: one for each call back to a name
on the path. -/
def closures (path pending : List Text) (callee : Text) : List (List Text) :=
  if path.contains callee then
    List.replicate (pending.count callee) (path.dropWhile (· ≠ callee))
  else []

theorem closing_append (cs ds : List (List Text)) (caller callee : Text) :
    closing (cs ++ ds) caller callee = closing cs caller callee ++ closing ds caller callee :=
  List.filter_append ..

theorem closures_nil (path : List Text) (callee : Text) : closures path [] callee = [] := by
  simp [closures]

theorem closures_of_mem {path : List Text} {callee : Text} (h : callee ∈ path)
    (pending : List Text) : closures path pending callee =
      List.replicate (pending.count callee) (path.dropWhile (· ≠ callee)) :=
  if_pos (List.contains_iff_mem.2 h)

theorem closures_of_notMem {path : List Text} {callee : Text} (h : callee ∉ path)
    (pending : List Text) : closures path pending callee = [] :=
  if_neg fun hcontains ↦ h (List.contains_iff_mem.1 hcontains)

/-- A call to a name that is not on the path closes nothing. -/
theorem closures_cons_of_notMem {path : List Text} {next : Text} (h : next ∉ path)
    (rest : List Text) (callee : Text) :
    closures path (next :: rest) callee = closures path rest callee := by
  by_cases hpath : callee ∈ path
  · have hne : next ≠ callee := fun heq ↦ h (heq ▸ hpath)
    rw [closures_of_mem hpath, closures_of_mem hpath, List.count_cons_of_ne hne]
  · rw [closures_of_notMem hpath, closures_of_notMem hpath]

/-- A call back to a name on the path closes the part of the path from there on. -/
theorem closures_cons_of_mem {path : List Text} {next : Text} (h : next ∈ path)
    (rest : List Text) (callee : Text) :
    closures path (next :: rest) callee =
      (if next = callee then [path.dropWhile (· ≠ next)] else []) ++ closures path rest callee := by
  by_cases heq : next = callee
  · subst heq
    rw [closures_of_mem h, closures_of_mem h, if_pos rfl, List.count_cons_self,
      List.replicate_succ]
    rfl
  · rw [closures, closures, if_neg heq, List.count_cons_of_ne heq, List.nil_append]

/-- The part of a path from a name on it begins there and ends where the path ends. -/
theorem closes_dropWhile_iff {path : List Text} {name : Text} (h : name ∈ path)
    {caller callee : Text} :
    Closes (path.dropWhile (· ≠ name)) caller callee ↔
      path.getLast? = some caller ∧ name = callee := by
  induction path with
  | nil => cases h
  | cons x xs ih =>
    by_cases hx : x = name
    · subst hx
      rw [List.dropWhile_cons_of_neg (by simp), Closes, List.head?_cons, Option.some_inj]
    · have hxs : name ∈ xs := List.mem_of_ne_of_mem (Ne.symm hx) h
      have hne : xs ≠ [] := List.ne_nil_of_mem hxs
      rw [List.dropWhile_cons_of_pos (by simpa using hx), ih hxs, List.getLast?_cons_of_ne_nil hne]

/-- The part of a path from a name on is closed by one call only. -/
theorem closing_cons_dropWhile {path : List Text} {name : Text} (h : name ∈ path)
    (cs : List (List Text)) (caller callee : Text) :
    closing (path.dropWhile (· ≠ name) :: cs) caller callee =
      (if path.getLast? = some caller ∧ name = callee then [path.dropWhile (· ≠ name)] else []) ++
        closing cs caller callee := by
  rw [closing, List.filter_cons]
  by_cases hcloses : Closes (path.dropWhile (· ≠ name)) caller callee
  · rw [if_pos (decide_eq_true hcloses), if_pos ((closes_dropWhile_iff h).1 hcloses)]
    rfl
  · rw [if_neg (by rwa [decide_eq_true_iff]), if_neg ((closes_dropWhile_iff h).not.1 hcloses)]
    rfl

/-! ### What a search adds -/

namespace Search

/-- What a search finds while it follows the pending calls of the last name of a path. Of the names that
have been entered before, only this one closes cycles; a name that is entered on the way closes what its
calls close on a path of its own. -/
structure Adds (g : CallGraph) (path pending : List Text) (s t : Search)
    (new : List (List Text)) : Prop where
  found : t.found = s.found ++ new
  visited : s.visited ⊆ t.visited
  own : ∀ name, path.getLast? = some name → ∀ callee,
    closing new name callee = closures path pending callee
  entered : ∀ caller ∈ s.visited, path.getLast? ≠ some caller → ∀ callee,
    closing new caller callee = []
  fresh : ∀ caller ∈ t.visited, caller ∉ s.visited → ∃ around, ∀ callee,
    closing new caller callee = closures around (g.callees caller) callee
  unentered : ∀ caller ∉ t.visited, ∀ callee, closing new caller callee = []

namespace Adds

variable {path pending rest : List Text} {s t u : Search} {callee : Text}
  {new new' : List (List Text)}

theorem nil (path : List Text) (s : Search) : Adds g path [] s s [] where
  found := (List.append_nil _).symm
  visited := List.Subset.refl _
  own _ _ callee := (closures_nil path callee).symm
  entered _ _ _ _ := rfl
  fresh _ hnew hold := absurd hnew hold
  unentered _ _ _ := rfl

/-- A call to a name that has been searched before closes nothing. -/
theorem skip (h : Adds g path rest s t new) (hpath : callee ∉ path) :
    Adds g path (callee :: rest) s t new where
  __ := h
  own name hname c := (h.own name hname c).trans (closures_cons_of_notMem hpath rest c).symm

/-- A call back to the path closes a cycle of its last name. -/
theorem record (h : Adds g path rest (s.record (path.dropWhile (· ≠ callee))) t new)
    (hpath : callee ∈ path) (hsub : path ⊆ s.visited) :
    Adds g path (callee :: rest) s t (path.dropWhile (· ≠ callee) :: new) := by
  have hother (a b : Text) (ha : path.getLast? ≠ some a) :
      closing (path.dropWhile (· ≠ callee) :: new) a b = closing new a b := by
    rw [closing_cons_dropWhile hpath, if_neg fun heq ↦ ha heq.1, List.nil_append]
  have hlast (a : Text) (ha : a ∉ s.visited) : path.getLast? ≠ some a :=
    fun heq ↦ ha (hsub (List.mem_of_getLast? heq))
  refine ⟨?_, h.visited, ?_, ?_, ?_, ?_⟩
  · rw [h.found, Search.record, List.append_assoc]
    rfl
  · intro name hname c
    rw [closing_cons_dropWhile hpath, h.own name hname c, closures_cons_of_mem hpath]
    simp only [hname, true_and]
  · intro caller hcaller hne c
    rw [hother caller c hne]
    exact h.entered caller hcaller hne c
  · intro caller hnew hold
    obtain ⟨around, haround⟩ := h.fresh caller hnew hold
    exact ⟨around, fun c ↦ (hother caller c (hlast caller hold)).trans (haround c)⟩
  · intro caller hcaller c
    rw [hother caller c (hlast caller fun hold ↦ hcaller (h.visited hold))]
    exact h.unentered caller hcaller c

/-- A name that has not been entered is searched before the next call is followed. -/
theorem enter
    (h : Adds g (path ++ [callee]) (g.callees callee) (s.enter callee) t new)
    (h' : Adds g path rest t u new') (hnew : callee ∉ s.visited) (hsub : path ⊆ s.visited) :
    Adds g path (callee :: rest) s u (new ++ new') := by
  have hlast : (path ++ [callee]).getLast? = some callee := by simp
  have hpath : path.getLast? ≠ some callee :=
    fun heq ↦ hnew (hsub (List.mem_of_getLast? heq))
  have hbelow (a : Text) (ha : a ∈ s.visited) (b : Text) : closing new a b = [] := by
    refine h.entered a (List.mem_cons_of_mem callee ha) ?_ b
    rw [hlast]
    exact fun heq ↦ hnew (Option.some.inj heq ▸ ha)
  have hentered : callee ∈ t.visited := h.visited (List.mem_cons_self ..)
  have hvisited : s.visited ⊆ t.visited := fun a ha ↦ h.visited (List.mem_cons_of_mem callee ha)
  refine ⟨?_, List.Subset.trans hvisited h'.visited, ?_, ?_, ?_, ?_⟩
  · rw [h'.found, h.found, List.append_assoc]
    rfl
  · intro name hname c
    rw [closing_append, hbelow name (hsub (List.mem_of_getLast? hname)), List.nil_append,
      h'.own name hname, closures_cons_of_notMem fun hmem ↦ hnew (hsub hmem)]
  · intro caller hcaller hne c
    rw [closing_append, hbelow caller hcaller, List.nil_append]
    exact h'.entered caller (hvisited hcaller) hne c
  · intro caller hcaller hold
    have hne : path.getLast? ≠ some caller :=
      fun heq ↦ hold (hsub (List.mem_of_getLast? heq))
    by_cases hearly : caller ∈ t.visited
    · -- It has been entered below the callee, and closes nothing afterwards.
      have hlate (c : Text) : closing (new ++ new') caller c = closing new caller c := by
        rw [closing_append, h'.entered caller hearly hne, List.append_nil]
      by_cases heq : caller = callee
      · subst heq
        exact ⟨path ++ [caller], fun c ↦ (hlate c).trans (h.own caller hlast c)⟩
      · have hold' : caller ∉ (s.enter callee).visited :=
          fun hmem ↦ (List.mem_cons.1 hmem).elim heq hold
        obtain ⟨around, haround⟩ := h.fresh caller hearly hold'
        exact ⟨around, fun c ↦ (hlate c).trans (haround c)⟩
    · obtain ⟨around, haround⟩ := h'.fresh caller hcaller hearly
      refine ⟨around, fun c ↦ ?_⟩
      rw [closing_append, h.unentered caller hearly, List.nil_append, haround]
  · intro caller hcaller c
    rw [closing_append, h.unentered caller fun hmem ↦ hcaller (h'.visited hmem),
      h'.unentered caller hcaller]
    rfl

end Adds

/-- Following the pending calls of the last name of a path adds to what has been found. -/
theorem exists_adds_follow (path pending : List Text) (s : Search) :
    path ⊆ s.visited → ∃ new, Adds g path pending s (follow g path s pending) new := by
  induction path, s, pending using explore.induct g with
  | case1 path s =>
    intro _
    rw [follow_nil]
    exact ⟨[], .nil path s⟩
  | case2 path s callee rest hnew below hbelow hafter =>
    intro hsub
    have hlonger : path ++ [callee] ⊆ (s.enter callee).visited := by
      intro x hx
      rcases List.mem_append.1 hx with hx | hx
      · exact List.mem_cons_of_mem callee (hsub hx)
      · exact List.mem_singleton.1 hx ▸ List.mem_cons_self ..
    have hkept : path ⊆ (visit g path s callee).visited := fun x hx ↦
      subset_visited_visit g path s callee (List.mem_cons_of_mem callee (hsub hx))
    obtain ⟨new, hadds⟩ := hbelow hlonger
    obtain ⟨new', hadds'⟩ := hafter hkept
    rw [follow_of_notMem hnew]
    exact ⟨new ++ new', hadds.enter hadds' hnew hsub⟩
  | case3 path s callee rest hold hmem ih =>
    intro hsub
    obtain ⟨new, hadds⟩ := ih hsub
    rw [follow_of_mem_path (not_not.1 hold) hmem]
    exact ⟨_, hadds.record hmem hsub⟩
  | case4 path s callee rest hold hmem ih =>
    intro hsub
    obtain ⟨new, hadds⟩ := ih hsub
    rw [follow_of_notMem_path (not_not.1 hold) hmem]
    exact ⟨new, hadds.skip hmem⟩

/-- Every name closes what its calls close on some path, and one that has not been entered nothing. -/
structure Traced (g : CallGraph) (s : Search) : Prop where
  closing_eq : ∀ caller, ∃ around, ∀ callee,
    closing s.found caller callee = closures around (g.callees caller) callee
  unentered : ∀ caller ∉ s.visited, ∀ callee, closing s.found caller callee = []

namespace Traced

theorem start : Traced g start where
  closing_eq _ := ⟨[], fun _ ↦ (closures_of_notMem List.not_mem_nil _).symm⟩
  unentered _ _ _ := rfl

/-- A search from a name that has not been entered says of each name that it enters what it closes. -/
theorem visit {s : Search} (h : Traced g s) {root : Text} (hroot : root ∉ s.visited) :
    Traced g (s.visit g [] root) := by
  have hsub : [root] ⊆ (s.enter root).visited :=
    List.cons_subset.2 ⟨List.mem_cons_self .., List.nil_subset _⟩
  obtain ⟨new, hadds⟩ := exists_adds_follow (g := g) [root] (g.callees root) (s.enter root) hsub
  have hfound (caller callee : Text) : closing (s.visit g [] root).found caller callee =
      closing s.found caller callee ++ closing new caller callee := by
    rw [← closing_append]
    exact congrArg (closing · caller callee) hadds.found
  refine ⟨fun caller ↦ ?_, fun caller hcaller callee ↦ ?_⟩
  · by_cases heq : caller = root
    · subst heq
      refine ⟨[caller], fun callee ↦ ?_⟩
      rw [hfound, h.unentered caller hroot, List.nil_append, hadds.own caller rfl]
    · by_cases hold : caller ∈ s.visited
      · obtain ⟨around, haround⟩ := h.closing_eq caller
        have hlast : [root].getLast? ≠ some caller := fun h ↦ heq (Option.some.inj h).symm
        refine ⟨around, fun callee ↦ ?_⟩
        rw [hfound, hadds.entered caller (List.mem_cons_of_mem root hold) hlast, List.append_nil,
          haround]
      · have hold' : caller ∉ (s.enter root).visited :=
          fun hmem ↦ (List.mem_cons.1 hmem).elim heq hold
        by_cases hnew : caller ∈ (s.visit g [] root).visited
        · obtain ⟨around, haround⟩ := hadds.fresh caller hnew hold'
          refine ⟨around, fun callee ↦ ?_⟩
          rw [hfound, h.unentered caller hold, List.nil_append, haround]
        · refine ⟨[], fun callee ↦ ?_⟩
          rw [hfound, h.unentered caller hold, List.nil_append, hadds.unentered caller hnew,
            closures_of_notMem List.not_mem_nil]
  · have hkept : caller ∉ s.visited :=
      fun hmem ↦ hcaller (hadds.visited (List.mem_cons_of_mem root hmem))
    rw [hfound, h.unentered caller hkept, hadds.unentered caller hcaller]
    rfl

end Traced

end Search

/-- Each name has a path such that the cycles that it closes are those that its calls close on the path. -/
theorem exists_closing_eq_closures (g : CallGraph) (caller : Text) :
    ∃ around, ∀ callee,
      closing g.cycles caller callee = closures around (g.callees caller) callee := by
  have htraced : Search.Traced g g.search := by
    apply List.foldlRecOn (motive := Search.Traced g) g.callers _ .start
    intro s hs root _
    split
    · exact hs
    · next hroot => exact hs.visit hroot
  have hcycles : g.cycles = g.search.found := by
    rw [cycles, scan_eq_scan_search]
    exact List.reverse_reverse _
  rw [hcycles]
  exact htraced.closing_eq caller

/-! ### How many cycles there are -/

/-- The call that leads from the last name of a cycle to its first one. -/
def closedBy? (c : List Text) : Option (Text × Text) :=
  c.getLast?.bind fun caller ↦ c.head?.map fun callee ↦ (caller, callee)

/-- The calls that close cycles, one for each cycle. -/
def closedBy (cs : List (List Text)) : List (Text × Text) := cs.filterMap closedBy?

theorem closedBy?_eq_some_iff {c : List Text} {caller callee : Text} :
    closedBy? c = some (caller, callee) ↔ Closes c caller callee := by
  rw [Closes, closedBy?]
  cases c.getLast? <;> cases c.head? <;> simp

theorem mem_closedBy_iff {cs : List (List Text)} {caller callee : Text} :
    (caller, callee) ∈ closedBy cs ↔ ∃ c ∈ cs, Closes c caller callee := by
  simp only [closedBy, List.mem_filterMap, closedBy?_eq_some_iff]

/-- A call stands there as often as there are cycles that it closes. -/
theorem count_closedBy [BEq (Text × Text)] [LawfulBEq (Text × Text)] (cs : List (List Text))
    (caller callee : Text) :
    (closedBy cs).count (caller, callee) = (closing cs caller callee).length := by
  rw [closedBy, List.count_filterMap, closing, ← List.countP_eq_length_filter]
  apply List.countP_congr
  intro c _
  rw [beq_iff_eq, closedBy?_eq_some_iff, decide_eq_true_iff]

/-- Every cycle is closed by a call. -/
theorem length_closedBy {cs : List (List Text)} (h : ∀ c ∈ cs, c ≠ []) :
    (closedBy cs).length = cs.length := by
  apply List.filterMap_length_eq_length.2
  intro c hc
  obtain ⟨x, xs, rfl⟩ := List.exists_cons_of_ne_nil (h c hc)
  rw [closedBy?, List.getLast?_eq_some_getLast (h _ hc)]
  rfl

/-- The recorded calls, each by its caller and its callee. -/
def calls (g : CallGraph) : List (Text × Text) := g.flatMap fun e ↦ e.2.map (e.1, ·)

theorem length_calls (g : CallGraph) : g.calls.length = (g.map fun e ↦ e.2.length).sum := by
  simp [calls]

theorem count_callees_le (g : CallGraph) (caller callee : Text) :
    (g.callees caller).count callee ≤ g.calls.count (caller, callee) := by
  induction g with
  | nil => exact Nat.le_refl _
  | cons e es ih =>
    obtain ⟨k, v⟩ := e
    rw [calls, List.flatMap_cons, List.count_append]
    by_cases hk : k = caller
    · subst hk
      have hown : (v.map fun x ↦ (k, x)).count (k, callee) = v.count callee :=
        List.count_map_of_injective v _ (fun _ _ h ↦ (Prod.mk.inj h).2) callee
      simp only [callees, Members.get?, if_pos, Option.getD_some]
      omega
    · have hrest : CallGraph.callees ((k, v) :: es) caller = CallGraph.callees es caller := by
        simp [callees, Members.get?, hk]
      rw [hrest]
      exact Nat.le_trans ih (Nat.le_add_left _ _)

/-- A call that closes a cycle closes it as often as it is made, and it closes no other one: the cycles
that begin with one name and end with another are all the same, and there are none or as many as the
latter calls the former. So there are as many cycles as the calls that close one are made, and no more
than there are calls. -/
theorem closing_cycles_all_or_none (g : CallGraph) :
    (∀ caller callee,
      ((closing g.cycles caller callee).length = 0 ∨
        (closing g.cycles caller callee).length = (g.callees caller).count callee) ∧
      ∀ c ∈ closing g.cycles caller callee, ∀ d ∈ closing g.cycles caller callee, c = d) ∧
    (∀ caller callee, (caller, callee) ∈ closedBy g.cycles ↔
      ∃ c ∈ g.cycles, Closes c caller callee) ∧
    g.cycles.length =
      ((closedBy g.cycles).dedup.map fun call ↦ (g.callees call.1).count call.2).sum ∧
    g.cycles.length ≤ (g.map fun e ↦ e.2.length).sum := by
  have hcases (caller callee : Text) :
      closing g.cycles caller callee = [] ∨ ∃ c, closing g.cycles caller callee =
        List.replicate ((g.callees caller).count callee) c := by
    obtain ⟨around, haround⟩ := exists_closing_eq_closures g caller
    by_cases hmem : callee ∈ around
    · exact .inr ⟨_, (haround callee).trans (closures_of_mem hmem _)⟩
    · exact .inl ((haround callee).trans (closures_of_notMem hmem _))
  have hlength (caller callee : Text) : (closing g.cycles caller callee).length = 0 ∨
      (closing g.cycles caller callee).length = (g.callees caller).count callee := by
    rcases hcases caller callee with h | ⟨c, h⟩
    · exact .inl (by rw [h, List.length_nil])
    · exact .inr (by rw [h, List.length_replicate])
  have htotal : (closedBy g.cycles).length = g.cycles.length :=
    length_closedBy fun c hc ↦ (simpleCycle_of_mem_found c (List.mem_reverse.1 hc)).ne_nil
  refine ⟨fun caller callee ↦ ⟨hlength caller callee, ?_⟩, fun _ _ ↦ mem_closedBy_iff, ?_, ?_⟩
  · intro c hc d hd
    rcases hcases caller callee with h | ⟨e, h⟩
    · rw [h] at hc
      cases hc
    · rw [h] at hc hd
      rw [List.eq_of_mem_replicate hc, List.eq_of_mem_replicate hd]
  · rw [← htotal, ← List.sum_map_count_dedup_eq_length]
    congr 1
    apply List.map_congr_left
    rintro ⟨caller, callee⟩ hmem
    have hclosing : closing g.cycles caller callee ≠ [] := by
      obtain ⟨c, hc, hcloses⟩ := mem_closedBy_iff.1 (List.mem_dedup.1 hmem)
      exact List.ne_nil_of_mem (List.mem_filter.2 ⟨hc, decide_eq_true hcloses⟩)
    refine (@count_closedBy instBEqOfDecidableEq _ g.cycles caller callee).trans ?_
    exact (hlength caller callee).resolve_left fun h ↦ hclosing (List.length_eq_zero_iff.1 h)
  · rw [← htotal, ← length_calls]
    apply List.Subperm.length_le
    apply List.subperm_ext_iff.2
    rintro ⟨caller, callee⟩ _
    have := hlength caller callee
    have := count_callees_le g caller callee
    rw [count_closedBy]
    omega

end CodeAtlas.CallGraph
