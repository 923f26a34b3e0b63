import CodeAtlas.Proofs.Calls.Course

/-!
# Every name once and every call once

`begun g k` and `followed g k` list what the first `k` steps of a scan begin and follow, in their
order. The former are the names that the scan knows to have been begun (`begun_eq`). The latter are
the calls that are past (`mem_followed_iff`): their caller has been begun, and they are not pending in
its frame any more. A call that is past is not followed again. Main statement:
`scan_follows_every_call_once`.
-/

namespace CodeAtlas.CallGraph

variable {g : CallGraph}

/-- A call: who calls, at which place among its calls, and who is called. -/
structure CallSite where
  caller : Text
  place : Nat
  callee : Text
  deriving DecidableEq

/-- `g.Makes c` says that the graph has the call `c` at its place. -/
def Makes (g : CallGraph) (c : CallSite) : Prop := (g.callees c.caller)[c.place]? = some c.callee

theorem Makes.place_lt {c : CallSite} (h : g.Makes c) : c.place < (g.callees c.caller).length :=
  (List.getElem?_eq_some_iff.1 h).1

/-- The calls of a name are told apart by their places. -/
theorem Makes.eq_of_place {c d : CallSite} (hc : g.Makes c) (hd : g.Makes d)
    (hcaller : c.caller = d.caller) (hplace : c.place = d.place) : c = d := by
  have hcallee : c.callee = d.callee := by
    apply Option.some.inj
    rw [← hc, ← hd, hcaller, hplace]
  rw [CallSite.mk.injEq]
  exact ⟨hcaller, hplace, hcallee⟩

/-- Whoever makes a call is a caller. -/
theorem Makes.mem_callers {c : CallSite} (h : g.Makes c) : c.caller ∈ g.callers :=
  Calls.mem_callers (List.mem_of_getElem? h)

namespace Scan

variable {s t : Scan} {name callee : Text} {rest : List Text} {fs : List Frame} {c : CallSite}

/-- The call that the next turn follows, the first one that is pending in the last frame. -/
def follows? (g : CallGraph) (s : Scan) : Option CallSite :=
  match s.frames with
  | ⟨name, callee :: rest⟩ :: _ =>
    some ⟨name, (g.callees name).length - (rest.length + 1), callee⟩
  | _ => none

/-- `s.Past g c` says that the call `c` has been followed: its caller has been begun, and if the caller
still has a frame, the call is made before those that are pending there. -/
def Past (g : CallGraph) (s : Scan) (c : CallSite) : Prop :=
  g.Makes c ∧ c.caller ∈ s.visited ∧
    ∀ f ∈ s.frames, f.name = c.caller → c.place + f.pending.length < (g.callees c.caller).length

theorem follows?_eq (frames : s.frames = ⟨name, callee :: rest⟩ :: fs) :
    s.follows? g = some ⟨name, (g.callees name).length - (rest.length + 1), callee⟩ := by
  rw [follows?, frames]

theorem follows?_of_pending_nil (frames : s.frames = ⟨name, []⟩ :: fs) :
    s.follows? g = none := by
  rw [follows?, frames]

/-- A call that is past is not followed again. -/
theorem not_past_of_follows? (h : s.follows? g = some c) : ¬ s.Past g c := by
  rintro ⟨-, -, hframes⟩
  unfold follows? at h
  split at h
  · next name callee rest fs hf =>
    cases h
    have hplace := hframes ⟨name, callee :: rest⟩ (by simp [hf]) rfl
    simp only [List.length_cons] at hplace
    omega
  · cases h

/-! ### What the moves do to the calls that are past -/

/-- No call of a name is past when the name is begun. -/
theorem past_enter {root : Text} (fresh : root ∉ s.visited) :
    (s.enter g root).Past g c ↔ s.Past g c := by
  constructor
  · rintro ⟨hc, hbegun, hpast⟩
    have hold : c.caller ≠ root := by
      rintro rfl
      have hbefore := hpast ⟨c.caller, g.callees c.caller⟩ (List.mem_cons_self ..) rfl
      simp only at hbefore
      omega
    exact ⟨hc, List.mem_of_ne_of_mem hold hbegun,
      fun f hf ↦ hpast f (List.mem_cons_of_mem _ hf)⟩
  · rintro ⟨hc, hbegun, hpast⟩
    refine ⟨hc, List.mem_cons_of_mem _ hbegun, fun f hf hname ↦ ?_⟩
    rcases List.mem_cons.1 hf with rfl | hf
    · have hroot : root = c.caller := hname
      exact absurd (hroot ▸ hbegun) fresh
    · exact hpast f hf hname

/-- The calls that are past stay so while one more is followed. -/
theorem past_advance_of_past (frames : s.frames = ⟨name, callee :: rest⟩ :: fs)
    (hpast : s.Past g c) : s.advance.Past g c := by
  obtain ⟨hc, hbegun, hbefore⟩ := hpast
  refine ⟨hc, by simpa using hbegun, fun f hf hname ↦ ?_⟩
  rw [advance_frames frames] at hf
  rcases List.mem_cons.1 hf with rfl | hf
  · have hlt := hbefore ⟨name, callee :: rest⟩ (by simp [frames]) hname
    simp only [List.length_cons, List.tail_cons] at hlt ⊢
    omega
  · exact hbefore f (by simp [frames, hf]) hname

/-- When a name ends, all of its calls are past already. -/
theorem past_leave (frames : s.frames = ⟨name, []⟩ :: fs) :
    (s.leave name).Past g c ↔ s.Past g c := by
  constructor
  · rintro ⟨hc, hbegun, hpast⟩
    refine ⟨hc, hbegun, fun f hf hname ↦ ?_⟩
    rw [frames] at hf
    rcases List.mem_cons.1 hf with rfl | hf
    · exact hc.place_lt
    · exact hpast f (by simp [leave, frames, hf]) hname
  · rintro ⟨hc, hbegun, hpast⟩
    exact ⟨hc, hbegun, fun f hf ↦ hpast f (List.mem_of_mem_tail hf)⟩

namespace Orderly

/-- A name on the path has one frame only. -/
theorem name_ne (h : Orderly g s) {f : Frame} (frames : s.frames = f :: fs) {f' : Frame}
    (hf' : f' ∈ fs) : f'.name ≠ f.name := by
  intro heq
  have hnodup := h.nodup
  rw [h.path_cons frames, List.nodup_cons] at hnodup
  exact hnodup.1 (List.mem_map.2 ⟨f', hf', heq⟩)

/-- The call that is pending first is made before the others that are pending, and after all that are
not. -/
theorem makes_pending (h : Orderly g s) (frames : s.frames = ⟨name, callee :: rest⟩ :: fs) :
    g.Makes ⟨name, (g.callees name).length - (rest.length + 1), callee⟩ := by
  obtain ⟨front, hfront⟩ := h.lastPending ⟨name, callee :: rest⟩ (by simp [frames])
  simp only [Makes, ← hfront, List.length_append, List.length_cons, Nat.add_sub_cancel]
  simp

/-- A call is past once it is followed. -/
theorem past_advance_of_follows? (h : Orderly g s)
    (frames : s.frames = ⟨name, callee :: rest⟩ :: fs) (hc : s.follows? g = some c) :
    s.advance.Past g c := by
  rw [follows?_eq frames] at hc
  cases hc
  refine ⟨h.makes_pending frames, ?_, fun f hf hname ↦ ?_⟩
  · rw [advance_visited]
    exact h.begun name (by simp [h.path_cons frames])
  · rw [advance_frames frames] at hf
    rcases List.mem_cons.1 hf with rfl | hf
    · have hle := (h.lastPending ⟨name, callee :: rest⟩ (by simp [frames])).length_le
      simp only [List.length_cons, List.tail_cons] at hle ⊢
      omega
    · exact absurd hname (h.name_ne frames hf)

/-- No other call becomes past with the one that is followed. -/
theorem past_of_past_advance (h : Orderly g s)
    (frames : s.frames = ⟨name, callee :: rest⟩ :: fs) (hpast : s.advance.Past g c)
    (hother : s.follows? g ≠ some c) : s.Past g c := by
  obtain ⟨hc, hbegun, hbefore⟩ := hpast
  rw [advance_visited] at hbegun
  rw [advance_frames frames] at hbefore
  refine ⟨hc, hbegun, fun f hf hname ↦ ?_⟩
  rw [frames] at hf
  rcases List.mem_cons.1 hf with rfl | hf
  · have hle := hbefore ⟨name, rest⟩ (List.mem_cons_self ..) hname
    have hplace : c.place ≠ (g.callees name).length - (rest.length + 1) := by
      intro heq
      apply hother
      rw [follows?_eq frames, (h.makes_pending frames).eq_of_place hc hname heq.symm]
    rw [show name = c.caller from hname] at hplace
    simp only [List.length_cons] at hle ⊢
    omega
  · exact hbefore f (List.mem_cons_of_mem _ hf) hname

/-- The calls that are past once a call has been followed are those that were and this one. -/
theorem past_advance (h : Orderly g s) (frames : s.frames = ⟨name, callee :: rest⟩ :: fs) :
    s.advance.Past g c ↔ s.Past g c ∨ s.follows? g = some c := by
  constructor
  · intro hpast
    by_cases hc : s.follows? g = some c
    · exact .inr hc
    · exact .inl (h.past_of_past_advance frames hpast hc)
  · rintro (hpast | hc)
    · exact past_advance_of_past frames hpast
    · exact h.past_advance_of_follows? frames hc

/-- The calls that are past after a move are those that were and the one that is followed. -/
theorem past_move (h : Orderly g s) (hm : Move g s t) :
    t.Past g c ↔ s.Past g c ∨ s.follows? g = some c := by
  cases hm with
  | leave frames =>
    rw [past_leave frames, follows?_of_pending_nil frames]
    simp
  | enter frames fresh =>
    rw [past_enter (by simpa using fresh)]
    exact h.past_advance frames
  | record frames => exact h.past_advance frames
  | skip frames => exact h.past_advance frames

end Orderly

end Scan

namespace Course

variable {c d : Course}

/-- The name that the next step begins: the next root, or the callee of the next call, if it has not
been begun. -/
def begins? (c : Course) : Option Text :=
  let waiting := match c.scan.frames with
    | [] => c.roots
    | f :: _ => f.pending
  waiting.head?.filter fun x ↦ !c.scan.visited.contains x

theorem begins?_of_frames {f : Frame} {fs : List Frame} (frames : c.scan.frames = f :: fs) :
    c.begins? = f.pending.head?.filter fun x ↦ !c.scan.visited.contains x := by
  simp only [begins?, frames]

theorem begins?_of_frames_eq_nil (frames : c.scan.frames = []) :
    c.begins? = c.roots.head?.filter fun x ↦ !c.scan.visited.contains x := by
  simp only [begins?, frames]

/-- A step adds the name that it begins to those that have been begun. -/
theorem visited_step (hs : Step g c d) :
    d.scan.visited = c.begins?.toList ++ c.scan.visited := by
  cases hs with
  | rest done => simp [begins?_of_frames_eq_nil done.1, done.2]
  | pass frames roots begun => simp [begins?_of_frames_eq_nil frames, roots, begun]
  | enter frames roots fresh =>
    simp [begins?_of_frames_eq_nil frames, roots, fresh, Scan.enter, Option.filter_some]
  | turn move =>
    cases move with
    | leave hf => simp [begins?_of_frames hf, Scan.leave]
    | enter hf fresh => simp [begins?_of_frames hf, fresh, Scan.enter, Option.filter_some]
    | record hf begun => simp [begins?_of_frames hf, begun, Scan.record]
    | skip hf begun => simp [begins?_of_frames hf, begun]

/-- A step adds the call that it follows to those that are past. -/
theorem past_step (h : Sound g c) (hs : Step g c d) (site : CallSite) :
    d.scan.Past g site ↔ c.scan.Past g site ∨ c.scan.follows? g = some site := by
  have hidle (frames : c.scan.frames = []) : c.scan.follows? g = none := by
    rw [Scan.follows?, frames]
  cases hs with
  | rest done => simp [hidle done.1]
  | pass frames => simp [hidle frames]
  | enter frames _ fresh =>
    rw [Scan.past_enter fresh, hidle frames]
    simp
  | turn move => exact h.orderly.past_move move

end Course

/-! ### What the steps begin and follow -/

/-- The names that the first steps of a scan begin, in their order. -/
def begun (g : CallGraph) (k : Nat) : List Text :=
  (List.range k).filterMap fun j ↦ (g.course j).begins?

/-- The calls that the first steps of a scan follow, in their order. -/
def followed (g : CallGraph) (k : Nat) : List CallSite :=
  (List.range k).filterMap fun j ↦ (g.course j).scan.follows? g

theorem begun_succ (g : CallGraph) (k : Nat) :
    g.begun (k + 1) = g.begun k ++ (g.course k).begins?.toList := by
  rw [begun, List.range_succ, List.filterMap_append]
  cases h : (g.course k).begins? <;> simp [begun, h]

theorem followed_succ (g : CallGraph) (k : Nat) :
    g.followed (k + 1) = g.followed k ++ ((g.course k).scan.follows? g).toList := by
  rw [followed, List.range_succ, List.filterMap_append]
  cases h : (g.course k).scan.follows? g <;> simp [followed, h]

/-- The names that have been begun are kept as they are begun. -/
theorem begun_eq (g : CallGraph) (k : Nat) : g.begun k = (g.course k).scan.visited.reverse := by
  induction k with
  | zero => rfl
  | succ k ih =>
    rw [begun_succ, ih, Course.visited_step (step_course g k), List.reverse_append]
    cases (g.course k).begins? <;> rfl

/-- The calls that have been followed are those that are past. -/
theorem mem_followed_iff {k : Nat} {c : CallSite} :
    c ∈ g.followed k ↔ (g.course k).scan.Past g c := by
  induction k with
  | zero => simp [followed, Scan.Past, course, Course.start, Scan.start]
  | succ k ih =>
    rw [followed_succ, List.mem_append, ih, Option.mem_toList,
      Course.past_step (sound_course g k) (step_course g k)]

/-- No call is followed twice. -/
theorem nodup_followed (g : CallGraph) (k : Nat) : (g.followed k).Nodup := by
  induction k with
  | zero => exact List.nodup_nil
  | succ k ih =>
    rw [followed_succ]
    cases h : (g.course k).scan.follows? g with
    | none => simpa using ih
    | some c =>
      have hnew : c ∉ g.followed k := fun hc ↦
        Scan.not_past_of_follows? h (mem_followed_iff.1 hc)
      rw [Option.toList_some, ← List.concat_eq_append]
      exact ih.concat hnew

/-- All calls are past when the scan has ended. -/
theorem past_scan_iff {c : CallSite} : g.scan.Past g c ↔ g.Makes c := by
  constructor
  · exact And.left
  · intro hc
    have hdone := (done_course_iff g g.stepCount).2 (Nat.le_refl _)
    have hframes : g.scan.frames = [] := scan_of_done hdone ▸ hdone.1
    refine ⟨hc, mem_visited_scan hc.mem_callers, ?_⟩
    rw [hframes]
    simp

/-- The scan of a graph ends, after exactly `stepCount` steps. At every step the path is made of the names
of the frames, without repetition; as a set it is the set of the names on the path, which have all been
begun; and no name is looked up on the path that is not there. Whenever a root has been finished, path
and set are empty. In the end every caller and every callee has been begun once and every call has been
followed once, and nothing else has. -/
theorem scan_follows_every_call_once (g : CallGraph) :
    (∀ k, (g.course k).Done ↔ g.stepCount ≤ k) ∧
    (g.course g.stepCount).scan = g.scan ∧
    (∀ k, let s := (g.course k).scan
      s.path = s.frames.map (·.name) ∧ s.path.Nodup ∧ (∀ x, x ∈ s.onPath ↔ x ∈ s.path) ∧
        s.onPath ⊆ s.visited ∧ s.turn? g = some (s.turn g)) ∧
    (∀ roots : List Text, let s := roots.foldl (Scan.scanFrom g) Scan.start
      s.frames = [] ∧ s.path = [] ∧ s.onPath = []) ∧
    ((g.begun g.stepCount).Nodup ∧
      ∀ x, x ∈ g.begun g.stepCount ↔ x ∈ g.callers ∨ ∃ a, g.Calls a x) ∧
    (g.followed g.stepCount).Nodup ∧ ∀ c, c ∈ g.followed g.stepCount ↔ g.Makes c := by
  have hscan : (g.course g.stepCount).scan = g.scan :=
    scan_of_done ((done_course_iff g _).2 (Nat.le_refl _))
  have hsound := sound_course g g.stepCount
  refine ⟨done_course_iff g, hscan, ?_, ?_, ⟨?_, ?_⟩, nodup_followed g _, ?_⟩
  · intro k
    have h := (sound_course g k).orderly
    refine ⟨h.path_eq, h.nodup, fun x ↦ by rw [h.onPath_eq], ?_, h.toCoherent.turn?_eq⟩
    rw [h.onPath_eq]
    exact h.begun
  · intro roots
    obtain ⟨hc, -, hframes⟩ := foldl_scanFrom_invariant (g := g) (P := fun _ ↦ True) trivial
      (fun _ _ _ _ _ _ ↦ trivial) (fun _ _ _ _ _ ↦ trivial) roots
    have hpath : (roots.foldl (Scan.scanFrom g) Scan.start).path = [] := by
      rw [hc.path_eq, hframes]
      rfl
    exact ⟨hframes, hpath, hc.onPath_eq.trans hpath⟩
  · rw [begun_eq]
    exact List.nodup_reverse.2 hsound.orderly.begunOnce
  · intro x
    rw [begun_eq, List.mem_reverse, ← mem_names_iff]
    constructor
    · intro hx
      exact hsound.named hx
    · intro hx
      exact hscan ▸ names_subset_visited_scan g hx
  · intro c
    rw [mem_followed_iff, hscan]
    exact past_scan_iff

/-- The calls of `m` rest while those of `f` are followed; the second call of `f` is followed although
it leads where the first one has led. -/
example :
    let m := Text.ofString "m"
    let f := Text.ofString "f"
    let calls : CallGraph := [(m, [f, m]), (f, [f, f])]
    calls.stepCount = 8 ∧
      calls.followed 8 = [⟨m, 0, f⟩, ⟨f, 0, f⟩, ⟨f, 1, f⟩, ⟨m, 1, m⟩] := by
  decide +kernel

end CodeAtlas.CallGraph
