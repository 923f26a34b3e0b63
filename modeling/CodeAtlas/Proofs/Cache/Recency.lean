import CodeAtlas.Proofs.Cache.Entries
import Mathlib.Data.Finset.Card
import Mathlib.Data.Finset.Image

/-!
# Recently used keys

A key is touched when it is stored and when it is found. `Cache.touched` lists the keys touched since
the last clearing, the latest touch first, and `Recent` says that the keys of a cache are the first
distinct ones of such a list, as many as there is room for. Every operation keeps that. Main
statements: `Recent.insert`, `Recent.lookup_of_some`, and `Recent.contains_iff`, a key is there exactly
if it was touched and fewer distinct other keys than there is room for were touched after it.
-/

namespace CodeAtlas

variable {κ α : Type} [DecidableEq κ]

/-! ### Distinct elements in the order of their first occurrences -/

/-- Repetitions may be left out before or after other elements are. -/
theorem eraseDups_filter (p : κ → Bool) : ∀ ts : List κ,
    (ts.filter p).eraseDups = ts.eraseDups.filter p
  | [] => rfl
  | t :: ts => by
    -- The rest without `t` is shorter, but no tail of the list: the recursion is on the length.
    have hrest := eraseDups_filter p (ts.filter fun x ↦ !x == t)
    rw [List.eraseDups_cons]
    by_cases ht : p t
    · rw [List.filter_cons_of_pos ht, List.filter_cons_of_pos ht, List.eraseDups_cons, ← hrest,
        List.filter_filter, List.filter_filter]
      simp only [Bool.and_comm]
    · rw [List.filter_cons_of_neg ht, List.filter_cons_of_neg ht, ← hrest, List.filter_filter]
      refine congrArg List.eraseDups (List.filter_congr fun x _ ↦ ?_)
      by_cases hx : x = t
      · simp [hx, ht]
      · simp [hx]
termination_by ts => ts.length
decreasing_by exact Nat.lt_succ_of_le (List.length_filter_le _ _)

/-- The first element leads, and the others follow without it. -/
theorem eraseDups_cons_eq (t : κ) (ts : List κ) :
    (t :: ts).eraseDups = t :: ts.eraseDups.filter (· ≠ t) := by
  rw [List.eraseDups_cons, eraseDups_filter]
  refine congrArg (t :: ·) (List.filter_congr fun x _ ↦ ?_)
  by_cases hx : x = t <;> simp [hx]

theorem nodup_eraseDups (ts : List κ) : ts.eraseDups.Nodup := by
  induction ts with
  | nil => simp
  | cons t ts ih =>
    rw [eraseDups_cons_eq, List.nodup_cons]
    exact ⟨by simp, ih.filter _⟩

/-- Distinct elements are as many as the list has as a set. -/
theorem length_eraseDups (ts : List κ) : ts.eraseDups.length = ts.toFinset.card := by
  rw [← List.toFinset_card_of_nodup (nodup_eraseDups ts)]
  congr 1
  ext t
  simp

/-- What stands before an element, once the repetitions are left out. -/
theorem takeWhile_ne_eraseDups (ts : List κ) (k : κ) :
    ts.eraseDups.takeWhile (· ≠ k) = (ts.takeWhile (· ≠ k)).eraseDups := by
  induction ts with
  | nil => rfl
  | cons t ts ih =>
    by_cases ht : t = k
    · simp [eraseDups_cons_eq, ht]
    · have hpred : (fun x ↦ !decide (x ≠ t) || decide (x ≠ k)) = fun x ↦ decide (x ≠ k) := by
        funext x
        by_cases hx : x = t
        · simp [hx, ht]
        · simp [hx]
      rw [eraseDups_cons_eq, List.takeWhile_cons_of_pos (by simpa using ht),
        List.takeWhile_cons_of_pos (by simpa using ht), eraseDups_cons_eq, ← ih,
        List.takeWhile_filter, hpred]

/-- What stands before an element, once all are renamed without merging any. -/
theorem takeWhile_ne_map {γ : Type} [DecidableEq γ] {f : κ → γ} {ts : List κ} {k : κ}
    (hf : Set.InjOn f {t | t ∈ k :: ts}) :
    (ts.map f).takeWhile (· ≠ f k) = (ts.takeWhile (· ≠ k)).map f := by
  have hne : ∀ t ∈ ts, f t = f k ↔ t = k := fun t ht ↦
    hf.eq_iff (List.mem_cons_of_mem k ht) (List.mem_cons_self ..)
  clear hf
  induction ts with
  | nil => rfl
  | cons t ts ih =>
    rw [List.forall_mem_cons] at hne
    by_cases ht : t = k
    · simp [ht]
    · rw [List.map_cons, List.takeWhile_cons_of_pos (by simpa [hne.1] using ht),
        List.takeWhile_cons_of_pos (by simpa using ht), List.map_cons, ih hne.2]

/-- An element stands in a prefix exactly if fewer others stand before it. -/
theorem mem_take_iff_length_takeWhile_lt (ts : List κ) (n : Nat) (k : κ) :
    k ∈ ts.take n ↔ k ∈ ts ∧ (ts.takeWhile (· ≠ k)).length < n := by
  induction ts generalizing n with
  | nil => simp
  | cons t ts ih =>
    cases n with
    | zero => simp
    | succ n =>
      by_cases ht : t = k
      · simp [ht]
      · rw [List.take_succ_cons, List.mem_cons, List.mem_cons, ih,
          List.takeWhile_cons_of_pos (by simpa using ht)]
        simp [Ne.symm ht]

/-- Nothing is left out with an element that is not there. -/
theorem filter_ne_of_notMem {ts : List κ} {k : κ} (h : k ∉ ts) : ts.filter (· ≠ k) = ts := by
  refine List.filter_eq_self.2 fun x hx ↦ ?_
  have hne : x ≠ k := by
    rintro rfl
    exact h hx
  simpa using hne

/-- An element that is moved to the front of a prefix leaves the same prefix as one that is moved to
the front of the whole list. -/
theorem take_cons_filter_take {ts : List κ} (h : ts.Nodup) (n : Nat) (k : κ) :
    (k :: (ts.take n).filter (· ≠ k)).take n = (k :: ts.filter (· ≠ k)).take n := by
  cases n with
  | zero => rfl
  | succ n =>
    rw [List.take_succ_cons, List.take_succ_cons]
    congr 1
    induction ts generalizing n with
    | nil => rfl
    | cons t ts ih =>
      rw [List.nodup_cons] at h
      by_cases ht : t = k
      · -- The prefix gives up the element itself, which does not come again.
        have hk : k ∉ ts := ht ▸ h.1
        have hfront : k ∉ ts.take n := fun hmem ↦ hk (List.mem_of_mem_take hmem)
        rw [List.take_succ_cons, List.filter_cons_of_neg (by simpa using ht),
          List.filter_cons_of_neg (by simpa using ht), filter_ne_of_notMem hk,
          filter_ne_of_notMem hfront, List.take_take, Nat.min_self]
      · cases n with
        | zero => rfl
        | succ n =>
          rw [List.take_succ_cons, List.filter_cons_of_pos (by simpa using ht),
            List.filter_cons_of_pos (by simpa using ht), List.take_succ_cons, List.take_succ_cons,
            ih h.2 n]

namespace Cache

/-! ### The order of use -/

/-- What matters for the order of use: a key is touched, or all entries are dropped. -/
inductive Use (κ : Type) where
  | touch (k : κ)
  | clear
  deriving DecidableEq

/-- The keys touched since the last clearing, the latest touch first, after one more use. -/
def Use.after (touched : List κ) : Use κ → List κ
  | touch k => k :: touched
  | clear => []

/-- The keys touched since the last clearing, the latest touch first. -/
def touched (uses : List (Use κ)) : List κ := uses.foldl Use.after []

omit [DecidableEq κ] in
/-- A key that is touched after some uses is touched by one of them, or was touched before. -/
theorem mem_foldl_after {uses : List (Use κ)} {ts : List κ} {k : κ}
    (h : k ∈ uses.foldl Use.after ts) : k ∈ ts ∨ .touch k ∈ uses := by
  induction uses generalizing ts with
  | nil => exact .inl h
  | cons u us ih =>
    rcases ih h with h | h
    · cases u with
      | touch k' =>
        rcases List.mem_cons.1 h with rfl | h
        · exact .inr (List.mem_cons_self ..)
        · exact .inl h
      | clear => cases h
    · exact .inr (List.mem_cons_of_mem u h)

/-- Among touches, the latest first, one of a key stands behind touches of fewer than `n` distinct
other keys. -/
def WithinReach (n : Nat) (ts : List κ) (k : κ) : Prop :=
  k ∈ ts ∧ (ts.takeWhile (· ≠ k)).toFinset.card < n

/-- The keys within reach are the first distinct ones. -/
theorem mem_take_eraseDups_iff {n : Nat} {ts : List κ} {k : κ} :
    k ∈ ts.eraseDups.take n ↔ WithinReach n ts k := by
  rw [mem_take_iff_length_takeWhile_lt, List.mem_eraseDups, takeWhile_ne_eraseDups,
    length_eraseDups, WithinReach]

/-- Renaming keys without merging any changes no reach. -/
theorem withinReach_map_iff {γ : Type} [DecidableEq γ] {f : κ → γ} {n : Nat} {ts : List κ} {k : κ}
    (hf : Set.InjOn f {t | t ∈ k :: ts}) :
    WithinReach n (ts.map f) (f k) ↔ WithinReach n ts k := by
  have hmem : f k ∈ ts.map f ↔ k ∈ ts := by
    refine ⟨fun h ↦ ?_, List.mem_map_of_mem⟩
    obtain ⟨t, ht, heq⟩ := List.mem_map.1 h
    exact hf (List.mem_cons_of_mem k ht) (List.mem_cons_self ..) heq ▸ ht
  have himage : ((ts.takeWhile (· ≠ k)).map f).toFinset =
      (ts.takeWhile (· ≠ k)).toFinset.image f := by
    ext x
    simp
  have hinj : Set.InjOn f (ts.takeWhile (· ≠ k)).toFinset := by
    refine hf.mono fun x hx ↦ List.mem_cons_of_mem k ?_
    exact (List.takeWhile_sublist _).subset (List.mem_toFinset.1 hx)
  rw [WithinReach, WithinReach, hmem, takeWhile_ne_map hf, himage,
    Finset.card_image_of_injOn hinj]

/-! ### Operations on recently used keys -/

/-- The keys of a cache are the most recently touched ones, as many as there is room for. -/
structure Recent (capacity : Nat) (ts : List κ) (c : Cache κ α) : Prop where
  capacity_eq : c.capacity = capacity
  keys_eq : c.keys = ts.eraseDups.take capacity

variable {capacity : Nat} {c : Cache κ α} {ts : List κ} {k : κ} {v : α}

/-- A key is contained exactly if it is among the keys. -/
theorem contains_iff_mem_keys (c : Cache κ α) (k : κ) : c.contains k = true ↔ k ∈ c.keys := by
  simp [contains, keys]

/-- A key is found exactly if it is contained. -/
theorem isSome_lookup (c : Cache κ α) (k : κ) : (c.lookup k).1.isSome = c.contains k := by
  rw [fst_lookup, find?, Option.isSome_map, contains, Bool.eq_iff_iff, List.find?_isSome,
    List.any_eq_true]

/-- Leaving out an entry leaves out its key. -/
theorem map_fst_without (k : κ) (es : List (κ × α)) :
    (without k es).map (·.1) = (es.map (·.1)).filter (· ≠ k) := by
  rw [without, List.filter_map]
  rfl

/-- A lookup that finds nothing leaves the entries. -/
theorem entries_lookup_of_none (h : (c.lookup k).1 = none) :
    (c.lookup k).2.entries = c.entries := by
  rw [fst_lookup] at h
  rw [lookup_of_find?_eq_none h]

theorem capacity_lookup (c : Cache κ α) (k : κ) : (c.lookup k).2.capacity = c.capacity := by
  unfold lookup
  split <;> rfl

theorem capacity_insert (c : Cache κ α) (k : κ) (v : α) :
    (c.insert k v).capacity = c.capacity := by
  unfold insert
  split
  · rfl
  · split <;> rfl

/-- An empty cache holds what has been touched so far. -/
theorem recent_empty (h : 0 < capacity) : Recent capacity [] (empty capacity h : Cache κ α) :=
  ⟨rfl, by simp [keys, empty]⟩

namespace Recent

theorem nodup (hc : Recent capacity ts c) : c.keys.Nodup := by
  rw [hc.keys_eq]
  exact (List.take_sublist _ _).nodup (nodup_eraseDups ts)

theorem length_keys_le (hc : Recent capacity ts c) : c.keys.length ≤ capacity := by
  rw [hc.keys_eq]
  exact List.length_take_le _ _

/-- The keys that a cache contains are those within reach. -/
theorem contains_iff (hc : Recent capacity ts c) (k : κ) :
    c.contains k = true ↔ WithinReach capacity ts k := by
  rw [contains_iff_mem_keys, hc.keys_eq, mem_take_eraseDups_iff]

/-- A cache that is cleared holds what has been touched since. -/
theorem clear (hc : Recent capacity ts c) : Recent capacity [] c.clear.2 :=
  ⟨hc.capacity_eq, by simp [keys, Cache.clear]⟩

/-- Moving a key to the front, and dropping the last one if there is no room, is a touch. -/
theorem touch {c' : Cache κ α} (hc : Recent capacity ts c) (hcapacity : c'.capacity = c.capacity)
    (hkeys : c'.keys = (k :: c.keys.filter (· ≠ k)).take capacity) :
    Recent capacity (k :: ts) c' := by
  refine ⟨hcapacity.trans hc.capacity_eq, ?_⟩
  rw [hkeys, hc.keys_eq, take_cons_filter_take (nodup_eraseDups ts), eraseDups_cons_eq]

/-- A key that is there is moved to the front without dropping another. -/
theorem take_promoted (hc : Recent capacity ts c) (hk : k ∈ c.keys) :
    (k :: c.keys.filter (· ≠ k)).take capacity = k :: c.keys.filter (· ≠ k) := by
  have hlt : (c.keys.filter (· ≠ k)).length < c.keys.length :=
    List.length_filter_lt_length_iff_exists.2 ⟨k, hk, by simp⟩
  exact List.take_of_length_le (hlt.trans_le hc.length_keys_le)

/-- A lookup that finds its key touches it. -/
theorem lookup_of_some (hc : Recent capacity ts c) (h : (c.lookup k).1 = some v) :
    Recent capacity (k :: ts) (c.lookup k).2 := by
  have hk : k ∈ c.keys := by
    rw [← contains_iff_mem_keys, ← isSome_lookup, h]
    rfl
  refine hc.touch (capacity_lookup c k) ?_
  rw [fst_lookup] at h
  rw [hc.take_promoted hk, lookup_of_find?_eq_some h]
  simp only [keys, List.map_cons, map_fst_without]

/-- A lookup that finds nothing touches nothing. -/
theorem lookup_of_none (hc : Recent capacity ts c) (h : (c.lookup k).1 = none) :
    Recent capacity ts (c.lookup k).2 := by
  refine ⟨(capacity_lookup c k).trans hc.capacity_eq, ?_⟩
  rw [keys, entries_lookup_of_none h]
  exact hc.keys_eq

/-- An insertion touches its key. -/
theorem insert (hc : Recent capacity ts c) (k : κ) (v : α) :
    Recent capacity (k :: ts) (c.insert k v) := by
  have hle := hc.length_keys_le
  have hsize : c.size = c.keys.length := by simp [size, keys]
  have hcapacity := hc.capacity_eq
  have pos := c.capacity_pos
  refine hc.touch (capacity_insert c k v) ?_
  by_cases hk : c.contains k
  · rw [hc.take_promoted ((contains_iff_mem_keys c k).1 hk)]
    rw [insert_of_contains hk]
    simp only [keys, List.map_cons, map_fst_without]
  · have hnew : c.contains k = false := Bool.eq_false_iff.2 hk
    rw [filter_ne_of_notMem (mt (contains_iff_mem_keys c k).2 hk)]
    by_cases hfull : c.capacity ≤ c.size
    · -- The last key is dropped, as the prefix of the same length that starts with the new key does.
      have hlength : capacity = c.keys.length - 1 + 1 := by omega
      rw [hlength, List.take_succ_cons, ← List.dropLast_eq_take, insert_of_full hnew hfull]
      simp only [keys, List.map_cons, List.map_dropLast]
    · have hroom : (k :: c.keys).length ≤ capacity := by
        rw [List.length_cons]
        omega
      rw [List.take_of_length_le hroom, insert_of_room hnew (Nat.lt_of_not_le hfull)]
      rfl

end Recent

end Cache

end CodeAtlas
