import CodeAtlas.Proofs.Cache.Inclusion
import Mathlib.Data.List.DropRight

/-!
# Balanced counters

Every lookup is a hit or a miss, and every key that comes in anew takes up room or displaces another
one. So the counters of a cache tell how often it has been asked and how many keys have come in since
the last clearing. `Balanced` says so of two numbers; each operation keeps it, and so does whatever does
to a cache what an operation does (`balanced_foldl`). Main statement: `balanced_after`.
-/

namespace CodeAtlas

/-! ### Moments -/

section Moments

variable {σ ω : Type}

/-- The inputs of a machine, each with the state that it meets. -/
def moments (next : σ → ω → σ) (s : σ) : List ω → List (σ × ω)
  | [] => []
  | o :: os => (s, o) :: moments next (next s o) os

theorem moments_concat (next : σ → ω → σ) (s : σ) (os : List ω) (o : ω) :
    moments next s (os ++ [o]) = moments next s os ++ [(os.foldl next s, o)] := by
  induction os generalizing s with
  | nil => rfl
  | cons p ps ih => exact congrArg (_ :: ·) (ih (next s p))

/-- How many moments after the last fresh start are of some kind. -/
def countSince (fresh : ω → Bool) (kind : σ × ω → Bool) (ms : List (σ × ω)) : Nat :=
  (ms.rtakeWhile fun m ↦ !fresh m.2).countP kind

theorem countSince_concat (fresh : ω → Bool) (kind : σ × ω → Bool) (ms : List (σ × ω))
    (m : σ × ω) : countSince fresh kind (ms ++ [m]) =
      if fresh m.2 then 0 else countSince fresh kind ms + if kind m then 1 else 0 := by
  unfold countSince
  rw [List.rtakeWhile_concat]
  cases fresh m.2 with
  | true => rfl
  | false => simp [List.countP_append, List.countP_singleton]

end Moments

namespace Cache

variable {κ α : Type} [DecidableEq κ]

/-! ### One operation -/

/-- The counters of a cache agree with a number of lookups and a number of new keys. -/
structure Balanced (capacity lookups newcomers : Nat) (c : Cache κ α) : Prop where
  recent : ∃ ts, Recent capacity ts c
  lookups_eq : c.hits + c.misses = lookups
  newcomers_eq : c.size + c.evictions = newcomers
  /-- Nothing is displaced before there is no room, and the room is not given back. -/
  full : 0 < c.evictions → c.size = capacity

namespace Balanced

variable {capacity lookups newcomers : Nat} {c : Cache κ α} {k : κ} {v : α}

theorem size_le (h : Balanced capacity lookups newcomers c) : c.size ≤ capacity := by
  obtain ⟨ts, hrecent⟩ := h.recent
  simpa [keys, size] using hrecent.length_keys_le

theorem capacity_eq (h : Balanced capacity lookups newcomers c) : c.capacity = capacity := by
  obtain ⟨ts, hrecent⟩ := h.recent
  exact hrecent.capacity_eq

/-- A key that moves to the front takes up no more room. -/
theorem size_front (h : Balanced capacity lookups newcomers c) (hk : k ∈ c.keys) :
    ((k, v) :: without k c.entries).length = c.size := by
  obtain ⟨ts, hrecent⟩ := h.recent
  rw [List.length_cons, length_without_add_one hrecent.nodup hk]

/-- An empty cache has not been asked anything. -/
theorem empty (h : 0 < capacity) : Balanced capacity 0 0 (empty capacity h : Cache κ α) :=
  ⟨⟨[], recent_empty h⟩, rfl, rfl, fun hpos ↦ absurd hpos (Nat.lt_irrefl 0)⟩

/-- A lookup is a hit or a miss. -/
theorem lookup (h : Balanced capacity lookups newcomers c) (k : κ) :
    Balanced capacity (lookups + 1) newcomers (c.lookup k).2 := by
  obtain ⟨ts, hrecent⟩ := h.recent
  have hlookups := h.lookups_eq
  cases hfind : c.find? k with
  | none =>
    have hfst : (c.lookup k).1 = none := by rw [fst_lookup, hfind]
    have hkept := hrecent.lookup_of_none hfst
    rw [lookup_of_find?_eq_none hfind] at hkept ⊢
    exact ⟨⟨ts, hkept⟩, by simp only; omega, h.newcomers_eq, h.full⟩
  | some v =>
    have hfst : (c.lookup k).1 = some v := by rw [fst_lookup, hfind]
    have hkept := hrecent.lookup_of_some hfst
    have hsize := h.size_front (v := v) (List.mem_map_of_mem (mem_entries_of_find? hfind))
    rw [lookup_of_find?_eq_some hfind] at hkept ⊢
    refine ⟨⟨k :: ts, hkept⟩, by simp only; omega, ?_, ?_⟩
    · rw [size, hsize]
      exact h.newcomers_eq
    · rw [size, hsize]
      exact h.full

/-- A key that is replaced does not come in anew. -/
theorem insert_of_contains (h : Balanced capacity lookups newcomers c) (hk : c.contains k = true)
    (v : α) : Balanced capacity lookups newcomers (c.insert k v) := by
  obtain ⟨ts, hrecent⟩ := h.recent
  have hkept := hrecent.insert k v
  have hsize := h.size_front (v := v) ((contains_iff_mem_keys c k).1 hk)
  rw [Cache.insert_of_contains hk] at hkept ⊢
  refine ⟨⟨k :: ts, hkept⟩, h.lookups_eq, ?_, ?_⟩
  · rw [size, hsize]
    exact h.newcomers_eq
  · rw [size, hsize]
    exact h.full

/-- A new key displaces another one or takes up room. -/
theorem insert_of_new (h : Balanced capacity lookups newcomers c) (hk : c.contains k = false)
    (v : α) : Balanced capacity lookups (newcomers + 1) (c.insert k v) := by
  obtain ⟨ts, hrecent⟩ := h.recent
  have hkept := hrecent.insert k v
  have hnewcomers := h.newcomers_eq
  have hle := h.size_le
  have hcapacity := h.capacity_eq
  have hpos := c.capacity_pos
  by_cases hfull : c.capacity ≤ c.size
  · -- One key goes and one comes, so the cache is as full as before.
    have hsize : ((k, v) :: c.entries.dropLast).length = c.size := by
      rw [List.length_cons, List.length_dropLast]
      exact Nat.sub_add_cancel (hpos.trans_le hfull)
    rw [insert_of_full hk hfull] at hkept ⊢
    refine ⟨⟨k :: ts, hkept⟩, h.lookups_eq, ?_, fun _ ↦ ?_⟩
    · rw [size, hsize]
      simp only
      omega
    · rw [size, hsize]
      omega
  · -- There is room, so nothing has been displaced.
    rw [insert_of_room hk (Nat.lt_of_not_le hfull)] at hkept ⊢
    refine ⟨⟨k :: ts, hkept⟩, h.lookups_eq, ?_, fun hevictions ↦ ?_⟩
    · simp only [size, List.length_cons] at hnewcomers ⊢
      omega
    · have hsize := h.full hevictions
      omega

/-- A cache that is cleared starts again. -/
theorem clear (h : Balanced capacity lookups newcomers c) : Balanced capacity 0 0 c.clear.2 := by
  obtain ⟨ts, hrecent⟩ := h.recent
  exact ⟨⟨[], hrecent.clear⟩, rfl, rfl, fun hpos ↦ absurd hpos (Nat.lt_irrefl 0)⟩

end Balanced

/-! ### Several operations -/

/-- If whatever is done to a cache keeps it balanced, it is balanced after several such things. -/
theorem balanced_foldl {ω : Type} {next : Cache κ α → ω → Cache κ α} {fresh : ω → Bool}
    {asks brings : Cache κ α × ω → Bool} {capacity : Nat}
    (keep : ∀ lookups newcomers c o, Balanced capacity lookups newcomers c →
      Balanced capacity (if fresh o then 0 else lookups + if asks (c, o) then 1 else 0)
        (if fresh o then 0 else newcomers + if brings (c, o) then 1 else 0) (next c o))
    (h : 0 < capacity) (os : List ω) :
    Balanced capacity (countSince fresh asks (moments next (empty capacity h) os))
      (countSince fresh brings (moments next (empty capacity h) os))
      (os.foldl next (empty capacity h)) := by
  induction os using List.reverseRecOn with
  | nil => exact .empty h
  | append_singleton os o ih =>
    rw [moments_concat, countSince_concat, countSince_concat, List.foldl_concat]
    exact keep _ _ _ o ih

namespace Operation

/-- Whether an operation is a clearing. -/
def isClear : Operation κ α → Bool
  | clear => true
  | lookup _ | insert _ _ | contains _ | size | stats | capacity => false

/-- Whether an operation is a lookup. -/
def isLookup : Operation κ α → Bool
  | lookup _ => true
  | insert _ _ | contains _ | size | stats | capacity | clear => false

/-- Whether an operation stores a value under a key that the cache does not hold. -/
def isNewcomer (c : Cache κ α) : Operation κ α → Bool
  | insert k _ => !c.contains k
  | lookup _ | contains _ | size | stats | capacity | clear => false

end Operation

/-- The operations of a sequence, each with the cache that it meets. -/
def operationMoments (c : Cache κ α) (ops : List (Operation κ α)) :
    List (Cache κ α × Operation κ α) := moments (fun c o ↦ (c.perform o).2) c ops

/-- How many lookups there are after the last clearing. -/
def lookupsIn (ms : List (Cache κ α × Operation κ α)) : Nat :=
  countSince Operation.isClear (fun m ↦ m.2.isLookup) ms

/-- How many insertions after the last clearing meet a cache that does not hold their key. -/
def newcomersIn (ms : List (Cache κ α × Operation κ α)) : Nat :=
  countSince Operation.isClear (fun m ↦ m.2.isNewcomer m.1) ms

/-- Every operation keeps the balance. -/
theorem Balanced.perform {capacity lookups newcomers : Nat} {c : Cache κ α}
    (h : Balanced capacity lookups newcomers c) (o : Operation κ α) :
    Balanced capacity (if o.isClear then 0 else lookups + if o.isLookup then 1 else 0)
      (if o.isClear then 0 else newcomers + if o.isNewcomer c then 1 else 0) (c.perform o).2 := by
  cases o with
  | lookup k => exact h.lookup k
  | insert k v =>
    cases hk : c.contains k with
    | true =>
      simpa [Cache.perform, Operation.isNewcomer, Operation.isClear, Operation.isLookup, hk] using
        h.insert_of_contains hk v
    | false =>
      simpa [Cache.perform, Operation.isNewcomer, Operation.isClear, Operation.isLookup, hk] using
        h.insert_of_new hk v
  | clear => exact h.clear
  | contains | size | stats | capacity => exact h

/-- The counters of a cache agree with what has been asked of it since the last clearing. -/
theorem balanced_after {capacity : Nat} (h : 0 < capacity) (ops : List (Operation κ α)) :
    Balanced capacity (lookupsIn (operationMoments (empty capacity h) ops))
      (newcomersIn (operationMoments (empty capacity h) ops)) (after (empty capacity h) ops) :=
  balanced_foldl (fun _ _ _ o hc ↦ hc.perform o) h ops

end Cache

end CodeAtlas
