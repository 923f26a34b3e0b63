import CodeAtlas.Proofs.Calls.Sound
import Mathlib.Logic.Relation

/-!
# Every cycle is found

When a name ends, each of its calls closes a cycle that has been recorded or leads to a name that has
ended before. So the calls that close no recorded cycle lead from ended names to ended names only,
and there is no cycle among them. `Scan.Explored` is this invariant. Main statement:
`acyclic_without_cycles`, without the calls that close what is found the graph has no cycle.
-/

namespace CodeAtlas.CallGraph

variable {g : CallGraph}

/-- No name leads back to itself by one or more calls. -/
def Acyclic (g : CallGraph) : Prop := ∀ x, ¬ Relation.TransGen g.Calls x x

/-- The call graph without the calls that close one of several cycles. -/
def without (g : CallGraph) (cs : List (List Text)) : CallGraph :=
  g.map fun e ↦ (e.1, e.2.filter fun callee ↦ ∀ c ∈ cs, ¬ Closes c e.1 callee)

/-- The calls that are left are those that close none of the cycles. -/
theorem calls_without {cs : List (List Text)} {a b : Text} :
    (g.without cs).Calls a b ↔ g.Calls a b ∧ ∀ c ∈ cs, ¬ Closes c a b := by
  have hcallees : (g.without cs).callees a =
      (g.callees a).filter fun callee ↦ ∀ c ∈ cs, ¬ Closes c a callee := by
    induction g with
    | nil => rfl
    | cons e es ih =>
      obtain ⟨k, v⟩ := e
      by_cases hk : k = a
      · subst hk
        simp [without, callees, Members.get?]
      · simpa [without, callees, Members.get?, hk] using ih
  rw [Calls, hcallees, List.mem_filter, decide_eq_true_iff]
  exact Iff.rfl

/-- Fewer calls are left if more cycles are opened. -/
theorem Calls.of_without {cs ds : List (List Text)} (hsub : ∀ c ∈ cs, c ∈ ds) {a b : Text}
    (h : (g.without ds).Calls a b) : (g.without cs).Calls a b := by
  obtain ⟨hcall, hopen⟩ := calls_without.1 h
  exact calls_without.2 ⟨hcall, fun c hc ↦ hopen c (hsub c hc)⟩

/-- A chain that closes leads from its first name back to it. -/
theorem exists_transGen_of_closes {R : Text → Text → Prop} {c : List Text} (hne : c ≠ [])
    (hchain : c.IsChain R) (hclosed : ∀ a b, Closes c a b → R a b) :
    ∃ x, Relation.TransGen R x x := by
  cases c with
  | nil => exact absurd rfl hne
  | cons x xs =>
    refine ⟨x, ?_⟩
    have hlast : (x :: xs).getLast? = some ((x :: xs).getLast hne) :=
      List.getLast?_eq_some_getLast hne
    apply Relation.TransGen.tail' _ (hclosed _ x ⟨hlast, rfl⟩)
    exact List.relationReflTransGen_of_exists_isChain_cons xs hchain rfl

/-- A simple cycle leads from a name back to it. -/
theorem SimpleCycle.exists_transGen {c : List Text} (h : SimpleCycle g c) :
    ∃ x, Relation.TransGen g.Calls x x :=
  exists_transGen_of_closes h.ne_nil h.chain h.closed

namespace Scan

/-- A name has ended if it has been begun and is not on the path any more. -/
def Ended (s : Scan) (x : Text) : Prop := x ∈ s.visited ∧ x ∉ s.path

/-- A call is settled if it closes a recorded cycle or leads to a name that has ended. -/
def Settled (s : Scan) (a b : Text) : Prop := (∃ c ∈ s.found, Closes c a b) ∨ s.Ended b

/-- The calls of the names in frames are pending or settled, or lead to the name in the frame above;
`above` is the name above the first frame. -/
def Followed (g : CallGraph) (settled : Text → Text → Prop) : Option Text → List Frame → Prop
  | _, [] => True
  | above, f :: fs =>
    (∀ x, g.Calls f.name x → x ∈ f.pending ∨ settled f.name x ∨ above = some x) ∧
      Followed g settled (some f.name) fs

/-- Nothing that a scan has left behind is part of a cycle that it has not found. -/
structure Explored (g : CallGraph) (s : Scan) : Prop where
  settled : ∀ a, s.Ended a → ∀ b, g.Calls a b → s.Settled a b
  acyclic : ∀ a, s.Ended a → ¬ Relation.TransGen (g.without s.found).Calls a a

/-! ### What the moves do to ended names and settled calls -/

theorem ended_advance (s : Scan) (x : Text) : s.advance.Ended x ↔ s.Ended x := by
  simp [Ended]

/-- Beginning a new name does not end any. -/
theorem ended_enter {s : Scan} {name : Text} (fresh : name ∉ s.visited) (x : Text) :
    (s.enter g name).Ended x ↔ s.Ended x := by
  simp only [Ended, enter, List.mem_cons, not_or]
  constructor
  · rintro ⟨hv | hv, hne, hp⟩
    · exact absurd hv hne
    · exact ⟨hv, hp⟩
  · rintro ⟨hv, hp⟩
    exact ⟨.inr hv, fun he ↦ fresh (he ▸ hv), hp⟩

/-- Only the last name ends when it is left. -/
theorem ended_leave {s : Scan} (hc : s.Coherent g) {name : Text} {fs : List Frame}
    (frames : s.frames = ⟨name, []⟩ :: fs) (x : Text) :
    (s.leave name).Ended x ↔ s.Ended x ∨ x = name := by
  have hpath := hc.path_cons frames
  have hnodup := hc.nodup
  rw [hpath, List.nodup_cons] at hnodup
  simp only [Ended, leave, hpath, List.tail_cons, List.mem_cons, not_or]
  constructor
  · rintro ⟨hv, hp⟩
    by_cases hx : x = name
    · exact .inr hx
    · exact .inl ⟨hv, hx, hp⟩
  · rintro (⟨hv, -, hp⟩ | rfl)
    · exact ⟨hv, hp⟩
    · exact ⟨hc.begun x (by simp [hpath]), hnodup.1⟩

theorem Settled.mono {s t : Scan} {a b : Text} (h : s.Settled a b)
    (found : ∀ c ∈ s.found, c ∈ t.found) (ended : ∀ x, s.Ended x → t.Ended x) :
    t.Settled a b := by
  rcases h with ⟨c, hc, hcl⟩ | h
  · exact .inl ⟨c, found c hc, hcl⟩
  · exact .inr (ended b h)

namespace Followed

variable {settled settled' : Text → Text → Prop} {above : Option Text} {fs : List Frame}

theorem mono (hs : ∀ a b, settled a b → settled' a b) (h : Followed g settled above fs) :
    Followed g settled' above fs := by
  induction fs generalizing above with
  | nil => trivial
  | cons f fs ih =>
    refine ⟨fun x hx ↦ ?_, ih h.2⟩
    rcases h.1 x hx with hp | hx | ha
    · exact .inl hp
    · exact .inr (.inl (hs _ _ hx))
    · exact .inr (.inr ha)

/-- The first pending call may be taken off when it is settled or leads to the name above. -/
theorem advance {name callee : Text} {rest : List Text}
    (h : Followed g settled none (⟨name, callee :: rest⟩ :: fs))
    (hc : settled name callee ∨ above = some callee) :
    Followed g settled above (⟨name, rest⟩ :: fs) := by
  refine ⟨fun x hx ↦ ?_, h.2⟩
  rcases h.1 x hx with hp | hx | ha
  · rcases List.mem_cons.1 hp with rfl | hp
    · exact .inr hc
    · exact .inl hp
  · exact .inr (.inl hx)
  · cases ha

/-- The name above may be dropped once every call to it is settled. -/
theorem forget {name : Text} (h : Followed g settled (some name) fs)
    (hn : ∀ a, settled a name) : Followed g settled none fs := by
  cases fs with
  | nil => trivial
  | cons f fs =>
    refine ⟨fun x hx ↦ ?_, h.2⟩
    rcases h.1 x hx with hp | hx | ha
    · exact .inl hp
    · exact .inr (.inl hx)
    · cases ha
      exact .inr (.inl (hn _))

end Followed

namespace Explored

variable {s t : Scan}

/-- What is left behind stays explored while no name ends and no cycle is forgotten. -/
theorem of_ended_iff (h : Explored g s) (found : ∀ c ∈ s.found, c ∈ t.found)
    (ended : ∀ x, t.Ended x ↔ s.Ended x) : Explored g t := by
  refine ⟨?_, ?_⟩
  · intro a ha b hab
    exact (h.settled a ((ended a).1 ha) b hab).mono found fun x ↦ (ended x).2
  · intro a ha hcycle
    apply h.acyclic a ((ended a).1 ha)
    exact Relation.TransGen.mono (fun _ _ ↦ Calls.of_without found) _ _ hcycle

/-- Calls that close no recorded cycle lead from ended names to ended names. -/
theorem ended_of_calls (h : Explored g s) {a b : Text} (ha : s.Ended a)
    (hab : (g.without s.found).Calls a b) : s.Ended b := by
  obtain ⟨hcall, hopen⟩ := calls_without.1 hab
  rcases h.settled a ha b hcall with ⟨c, hc, hcl⟩ | hb
  · exact absurd hcl (hopen c hc)
  · exact hb

/-- Nothing but ended names can be reached from an ended one. -/
theorem ended_of_reflTransGen (h : Explored g s) {a b : Text} (ha : s.Ended a)
    (hab : Relation.ReflTransGen (g.without s.found).Calls a b) : s.Ended b := by
  induction hab with
  | refl => exact ha
  | tail _ hbc ih => exact h.ended_of_calls ih hbc

/-- A name may end once its calls are settled: they lead to ended names, from which no call leads
back to the path. -/
theorem leave (h : Explored g s) (hc : s.Coherent g) {name : Text} {fs : List Frame}
    (frames : s.frames = ⟨name, []⟩ :: fs) (hname : ∀ b, g.Calls name b → s.Settled name b) :
    Explored g (s.leave name) := by
  have hended := ended_leave hc frames
  have hmono (a b : Text) (hab : s.Settled a b) : (s.leave name).Settled a b :=
    hab.mono (fun c hc ↦ hc) fun x hx ↦ (hended x).2 (.inl hx)
  refine ⟨?_, ?_⟩
  · intro a ha b hab
    rcases (hended a).1 ha with ha | rfl
    · exact hmono a b (h.settled a ha b hab)
    · exact hmono a b (hname b hab)
  · intro a ha hcycle
    rcases (hended a).1 ha with ha | rfl
    · exact h.acyclic a ha hcycle
    · obtain ⟨b, hab, hba⟩ := Relation.TransGen.head'_iff.1 hcycle
      obtain ⟨hcall, hopen⟩ := calls_without.1 hab
      rcases hname b hcall with ⟨c, hc, hcl⟩ | hb
      · exact hopen c hc hcl
      · apply (h.ended_of_reflTransGen hb hba).2
        exact List.mem_of_mem_head? (hc.head?_path frames)

end Explored

/-! ### What the moves keep -/

/-- The invariant of the scan: the calls on the path are followed, and what is left behind is
explored. -/
def Kept (g : CallGraph) (s : Scan) : Prop :=
  Followed g s.Settled none s.frames ∧ Explored g s

/-- A name that begins is followed: all of its calls are pending. -/
theorem Kept.enter {s : Scan} (h : Explored g s) {name : Text} (fresh : name ∉ s.visited)
    (followed : Followed g s.Settled (some name) s.frames) : Kept g (s.enter g name) := by
  have hended := ended_enter (g := g) fresh
  refine ⟨⟨fun x hx ↦ .inl hx, followed.mono fun a b hab ↦ ?_⟩, ?_⟩
  · exact hab.mono (fun c hc ↦ hc) fun x ↦ (hended x).2
  · exact h.of_ended_iff (fun c hc ↦ hc) hended

/-- Every move keeps the invariant. -/
theorem Kept.move {s t : Scan} (hc : s.Coherent g) (h : Kept g s) (hm : Move g s t) :
    Kept g t := by
  obtain ⟨hfollowed, hexplored⟩ := h
  have hadvance : Explored g s.advance :=
    hexplored.of_ended_iff (by simp) (ended_advance s)
  have hsettled (a b : Text) (hab : s.Settled a b) : s.advance.Settled a b :=
    hab.mono (by simp) fun x ↦ (ended_advance s x).2
  cases hm with
  | @leave name fs frames =>
    rw [frames] at hfollowed
    have hname (b : Text) (hb : g.Calls name b) : s.Settled name b := by
      rcases hfollowed.1 b hb with hp | hb | ha
      · cases hp
      · exact hb
      · cases ha
    refine ⟨?_, hexplored.leave hc frames hname⟩
    have hended := ended_leave hc frames
    rw [Scan.leave, frames]
    apply Followed.forget _ fun a ↦ .inr ((hended name).2 (.inr rfl))
    exact hfollowed.2.mono fun a b hab ↦
      hab.mono (fun c hc ↦ hc) fun x hx ↦ (hended x).2 (.inl hx)
  | @enter name callee rest fs frames fresh =>
    rw [frames] at hfollowed
    apply Kept.enter hadvance (by simpa using fresh)
    rw [advance_frames frames]
    exact (hfollowed.mono hsettled).advance (.inr rfl)
  | @record name callee rest fs frames begun pathed =>
    rw [frames] at hfollowed
    have hfound (c : List Text) (hf : c ∈ s.advance.found) : c ∈ (s.advance.record callee).found :=
      List.mem_cons_of_mem _ hf
    have hcloses : Closes (cycleFrom s.path callee) name callee :=
      ⟨(getLast?_cycleFrom (hc.onPath_eq ▸ pathed)).trans (hc.head?_path frames),
        head?_cycleFrom _ _⟩
    have hclosed : (s.advance.record callee).Settled name callee :=
      .inl ⟨_, List.mem_cons_self .., by simpa using hcloses⟩
    refine ⟨?_, hadvance.of_ended_iff hfound fun x ↦ Iff.rfl⟩
    rw [Scan.record, advance_frames frames]
    apply Followed.advance _ (.inl hclosed)
    exact hfollowed.mono fun a b hab ↦ (hsettled a b hab).mono hfound fun x hx ↦ hx
  | @skip name callee rest fs frames begun ended =>
    rw [frames] at hfollowed
    have hended : s.advance.Ended callee :=
      (ended_advance s callee).2 ⟨begun, hc.onPath_eq ▸ ended⟩
    refine ⟨?_, hadvance⟩
    rw [advance_frames frames]
    exact (hfollowed.mono hsettled).advance (.inl (.inr hended))

end Scan

/-- The whole scan has explored what it has begun, and nothing is on its path any more. -/
theorem explored_scan (g : CallGraph) : g.scan.Explored g ∧ g.scan.path = [] := by
  have hstart : Scan.Kept g Scan.start := by
    refine ⟨trivial, ?_, ?_⟩ <;> simp [Scan.Ended, Scan.start]
  obtain ⟨⟨-, hexplored⟩, hpath⟩ := scan_invariant hstart
    (fun s r _ h frames fresh ↦ .enter h.2 fresh (by rw [frames]; trivial))
    fun s t hc h hm ↦ h.move hc hm
  exact ⟨hexplored, hpath⟩

/-- The whole scan has left every caller behind. -/
theorem acyclic_without_found : (g.without g.scan.found).Acyclic := by
  obtain ⟨hexplored, hpath⟩ := explored_scan g
  intro x hcycle
  obtain ⟨y, hxy, -⟩ := Relation.TransGen.head'_iff.1 hcycle
  have hx : x ∈ g.callers := (calls_without.1 hxy).1.mem_callers
  exact hexplored.acyclic x ⟨mem_visited_scan hx, by simp [hpath]⟩ hcycle

/-- Whoever is called by a name that the scan has begun has been begun too. -/
theorem Calls.mem_visited_scan {a b : Text} (h : g.Calls a b) (ha : a ∈ g.scan.visited) :
    b ∈ g.scan.visited := by
  obtain ⟨hexplored, hpath⟩ := explored_scan g
  rcases hexplored.settled a ⟨ha, by simp [hpath]⟩ b h with ⟨c, hc, hcloses⟩ | hended
  · -- The first name of a cycle is one of its callers.
    have hb : b ∈ c := List.mem_of_mem_head? hcloses.2
    exact CallGraph.mem_visited_scan ((simpleCycle_of_mem_found c hc).callers b hb)
  · exact hended.1

/-- Without the calls that close the cycles which are found, a call graph has no cycle. So a cycle is
found exactly if there is one. -/
theorem acyclic_without_cycles (g : CallGraph) :
    (g.without g.cycles).Acyclic ∧
      (g.hasCycle = true ↔ ∃ x, Relation.TransGen g.Calls x x) := by
  have hacyclic : (g.without g.cycles).Acyclic := by
    intro x hcycle
    apply acyclic_without_found x
    exact Relation.TransGen.mono (fun _ _ ↦ Calls.of_without fun c ↦ List.mem_reverse.2) _ _ hcycle
  refine ⟨hacyclic, ?_, ?_⟩
  · intro h
    have hne : g.cycles ≠ [] := by simpa [hasCycle] using h
    obtain ⟨c, hc⟩ := List.exists_mem_of_ne_nil _ hne
    exact (simpleCycle_of_mem_found c (List.mem_reverse.1 hc)).exists_transGen
  · rintro ⟨x, hcycle⟩
    by_contra h
    have hnil : g.cycles = [] := by simpa [hasCycle] using h
    apply hacyclic x
    exact Relation.TransGen.mono (fun a b hab ↦ calls_without.2 ⟨hab, by simp [hnil]⟩) _ _ hcycle

end CodeAtlas.CallGraph
