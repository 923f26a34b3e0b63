import CodeAtlas.Proofs.Cache.History

/-!
# Caches with more room

Two caches with different room go through the same operations. A key may be found in the larger one only,
and then it moves to the front there and nowhere else; an insertion may displace an entry from both, from
one, or from none. Still the larger cache holds all that the smaller one holds, in the same order of use:
while the smaller one has room, nothing has been displaced from either and both hold the same
(`Included.eq_of_room`), and once it has none, it gives up an entry whenever the larger one does. Main
statement: `entries_after_sublist`.
-/

namespace CodeAtlas.Cache

variable {κ α : Type} {c d : Cache κ α} {k : κ} {v : α}

/-- Two lists of which one is contained in the other remain so without their last elements. -/
theorem sublist_dropLast {β : Type} {xs ys : List β} (h : xs.Sublist ys) :
    xs.dropLast.Sublist ys.dropLast := by
  rw [← List.reverse_sublist, ← List.tail_reverse, ← List.tail_reverse]
  exact h.reverse.tail

variable [DecidableEq κ]

/-! ### Entries with distinct keys -/

/-- If keys are distinct, a key has the value of its only entry. -/
theorem find?_eq_some_iff (h : c.keys.Nodup) : c.find? k = some v ↔ (k, v) ∈ c.entries := by
  refine ⟨mem_entries_of_find?, fun hmem ↦ ?_⟩
  have hcontained : (c.find? k).isSome = true := by
    rw [find?, Option.isSome_map, List.find?_isSome]
    exact ⟨(k, v), hmem, by simp⟩
  obtain ⟨w, hw⟩ := Option.isSome_iff_exists.1 hcontained
  have hentry : (k, w) = (k, v) := List.inj_on_of_nodup_map h (mem_entries_of_find? hw) hmem rfl
  cases hentry
  exact hw

/-- If keys are distinct, leaving out a key leaves out one entry. -/
theorem length_without_add_one (h : c.keys.Nodup) (hk : k ∈ c.keys) :
    (without k c.entries).length + 1 = c.size := by
  have herase : c.keys.erase k = c.keys.filter (· ≠ k) := by
    rw [h.erase_eq_filter]
    refine List.filter_congr fun x _ ↦ ?_
    by_cases hx : x = k <;> simp [hx]
  calc
    (without k c.entries).length + 1 = ((without k c.entries).map (·.1)).length + 1 := by
      rw [List.length_map]
    _ = (c.keys.erase k).length + 1 := by rw [map_fst_without, herase, keys]
    _ = c.keys.length := List.length_erase_add_one hk
    _ = c.size := List.length_map ..

theorem contains_eq_false (hk : k ∉ c.keys) : c.contains k = false :=
  Bool.eq_false_iff.2 fun hcontains ↦ hk ((contains_iff_mem_keys c k).1 hcontains)

/-- An insertion counts nothing but an entry that it displaces. -/
theorem hits_insert (c : Cache κ α) (k : κ) (v : α) : (c.insert k v).hits = c.hits := by
  unfold Cache.insert
  split
  · rfl
  · split <;> rfl

/-- Leaving out a key that has no entry leaves out nothing. -/
theorem without_of_notMem_keys (hk : k ∉ c.keys) : without k c.entries = c.entries := by
  refine List.filter_eq_self.2 fun e he ↦ ?_
  have hne : e.1 ≠ k := by
    rintro rfl
    exact hk (List.mem_map_of_mem he)
  simpa using hne

/-! ### One operation on two caches -/

/-- What the smaller of two caches holds after some operations is held by the larger one after the same
operations, in the same order. -/
structure Included (c d : Cache κ α) : Prop where
  capacity_le : c.capacity ≤ d.capacity
  sublist : c.entries.Sublist d.entries
  /-- While the smaller cache has room, nothing has been displaced. -/
  eq_of_room : c.size < c.capacity → c.entries = d.entries
  hits_le : c.hits ≤ d.hits

namespace Included

omit [DecidableEq κ] in
theorem keys_subset (h : Included c d) : c.keys ⊆ d.keys := (h.sublist.map _).subset

omit [DecidableEq κ] in
/-- A key that only the larger cache holds shows that the smaller one has no room. -/
theorem full_of_notMem (h : Included c d) (hc : k ∉ c.keys) (hd : k ∈ d.keys) :
    c.capacity ≤ c.size := by
  by_contra hroom
  rw [keys, h.eq_of_room (Nat.lt_of_not_le hroom)] at hc
  exact hc hd

/-- What is found in the smaller cache is found in the larger one. -/
theorem find?_eq_some (h : Included c d) (hd : d.keys.Nodup) (hc : c.find? k = some v) :
    d.find? k = some v :=
  (find?_eq_some_iff hd).2 (h.sublist.subset (mem_entries_of_find? hc))

/-- A key that both caches hold goes to the front of both. -/
theorem front {c' d' : Cache κ α} (h : Included c d) (hd : d.keys.Nodup) (hk : k ∈ c.keys)
    (hc' : c'.capacity = c.capacity ∧ c'.entries = (k, v) :: without k c.entries)
    (hd' : d'.capacity = d.capacity ∧ d'.entries = (k, v) :: without k d.entries)
    (hhits : c'.hits ≤ d'.hits) : Included c' d' where
  capacity_le := by
    rw [hc'.1, hd'.1]
    exact h.capacity_le
  sublist := by
    rw [hc'.2, hd'.2]
    exact (h.sublist.filter _).cons_cons (k, v)
  eq_of_room := by
    have hsize := length_without_add_one ((h.sublist.map _).nodup hd) hk
    rw [size, hc'.1, hc'.2, hd'.2, List.length_cons, hsize]
    intro hroom
    rw [h.eq_of_room hroom]
  hits_le := hhits

/-- A lookup finds its key in both caches, in the larger one only, or in none. -/
theorem lookup (h : Included c d) (hd : d.keys.Nodup) (k : κ) :
    Included (c.lookup k).2 (d.lookup k).2 := by
  cases hfindc : c.find? k with
  | some v =>
    have hk : k ∈ c.keys := List.mem_map_of_mem (mem_entries_of_find? hfindc)
    rw [lookup_of_find?_eq_some hfindc, lookup_of_find?_eq_some (h.find?_eq_some hd hfindc)]
    exact h.front hd hk ⟨rfl, rfl⟩ ⟨rfl, rfl⟩ (Nat.succ_le_succ h.hits_le)
  | none =>
    rw [lookup_of_find?_eq_none hfindc]
    cases hfindd : d.find? k with
    | none =>
      rw [lookup_of_find?_eq_none hfindd]
      exact ⟨h.capacity_le, h.sublist, h.eq_of_room, h.hits_le⟩
    | some v =>
      have hkc : k ∉ c.keys := by
        rw [← contains_iff_mem_keys, ← isSome_lookup, fst_lookup, hfindc]
        exact Bool.false_ne_true
      have hkd : k ∈ d.keys := List.mem_map_of_mem (mem_entries_of_find? hfindd)
      rw [lookup_of_find?_eq_some hfindd]
      refine ⟨h.capacity_le, ?_, fun hroom ↦ ?_, Nat.le_succ_of_le h.hits_le⟩
      · have hsublist : (without k c.entries).Sublist (without k d.entries) := h.sublist.filter _
        rw [without_of_notMem_keys hkc] at hsublist
        exact hsublist.cons (k, v)
      · exact absurd hroom (Nat.not_lt_of_le (h.full_of_notMem hkc hkd))

/-- While there is room in the smaller cache, a new key displaces nothing from either. -/
theorem insert_of_room (h : Included c d) (hk : k ∉ c.keys) (hroom : c.size < c.capacity) (v : α) :
    Included (c.insert k v) (d.insert k v) := by
  have hentries := h.eq_of_room hroom
  have hkd : k ∉ d.keys := by rwa [keys, ← hentries]
  have hroomd : d.size < d.capacity := by
    rw [size, ← hentries]
    exact hroom.trans_le h.capacity_le
  rw [Cache.insert_of_room (contains_eq_false hk) hroom,
    Cache.insert_of_room (contains_eq_false hkd) hroomd]
  refine ⟨h.capacity_le, ?_, fun _ ↦ ?_, h.hits_le⟩
  · exact h.sublist.cons_cons (k, v)
  · rw [hentries]

/-- If the smaller cache is full, what is left in it is left in the larger one, whether a new key
displaces the last entry there, finds room or moves to the front. -/
theorem exists_entries_insert_of_full (h : Included c d) (hk : k ∉ c.keys) (v : α) :
    ∃ es, (d.insert k v).entries = (k, v) :: es ∧ c.entries.dropLast.Sublist es := by
  by_cases hkd : k ∈ d.keys
  · refine ⟨without k d.entries, ?_, ?_⟩
    · rw [insert_of_contains ((contains_iff_mem_keys d k).2 hkd)]
    · rw [← without_of_notMem_keys hk]
      exact (List.dropLast_sublist _).trans (h.sublist.filter _)
  · by_cases hfull : d.capacity ≤ d.size
    · exact ⟨d.entries.dropLast, by rw [insert_of_full (contains_eq_false hkd) hfull],
        sublist_dropLast h.sublist⟩
    · refine ⟨d.entries, ?_, (List.dropLast_sublist _).trans h.sublist⟩
      rw [Cache.insert_of_room (contains_eq_false hkd) (Nat.lt_of_not_le hfull)]

/-- If the smaller cache is full, it is so again after a new key has displaced its last entry. -/
theorem insert_of_full (h : Included c d) (hk : k ∉ c.keys) (hfull : c.capacity ≤ c.size) (v : α) :
    Included (c.insert k v) (d.insert k v) := by
  have hentries : (c.insert k v).entries = (k, v) :: c.entries.dropLast := by
    rw [Cache.insert_of_full (contains_eq_false hk) hfull]
  have hsize : (c.insert k v).size = c.size := by
    have hpos : 0 < c.size := c.capacity_pos.trans_le hfull
    rw [size, hentries, List.length_cons, List.length_dropLast]
    exact Nat.sub_add_cancel hpos
  obtain ⟨es, hentriesd, hsublist⟩ := h.exists_entries_insert_of_full hk v
  refine ⟨?_, ?_, fun hroom ↦ ?_, ?_⟩
  · rw [capacity_insert, capacity_insert]
    exact h.capacity_le
  · rw [hentries, hentriesd]
    exact hsublist.cons_cons (k, v)
  · rw [hsize, capacity_insert] at hroom
    exact absurd hroom (Nat.not_lt_of_le hfull)
  · rw [hits_insert, hits_insert]
    exact h.hits_le

/-- After an insertion the larger cache again holds what the smaller one holds. -/
theorem insert (h : Included c d) (hd : d.keys.Nodup) (k : κ) (v : α) :
    Included (c.insert k v) (d.insert k v) := by
  by_cases hk : k ∈ c.keys
  · have hkd : d.contains k = true := (contains_iff_mem_keys d k).2 (h.keys_subset hk)
    rw [insert_of_contains ((contains_iff_mem_keys c k).2 hk), insert_of_contains hkd]
    exact h.front hd hk ⟨rfl, rfl⟩ ⟨rfl, rfl⟩ h.hits_le
  · by_cases hfull : c.capacity ≤ c.size
    · exact h.insert_of_full hk hfull v
    · exact h.insert_of_room hk (Nat.lt_of_not_le hfull) v

/-- After any operation the larger cache again holds what the smaller one holds. -/
theorem perform (h : Included c d) (hd : d.keys.Nodup) (o : Operation κ α) :
    Included (c.perform o).2 (d.perform o).2 := by
  cases o with
  | lookup k => exact h.lookup hd k
  | insert k v => exact h.insert hd k v
  | clear => exact ⟨h.capacity_le, List.Sublist.refl [], fun _ ↦ rfl, Nat.le_refl 0⟩
  | contains | size | stats | capacity => exact h

end Included

/-! ### Several operations on two caches -/

variable {m n : Nat}

/-- After the same operations, the larger of two caches holds what the smaller one holds. -/
theorem included_after (hm : 0 < m) (hmn : m ≤ n) (ops : List (Operation κ α)) :
    Included (after (empty m hm) ops) (after (empty n (hm.trans_le hmn)) ops) := by
  induction ops using List.reverseRecOn with
  | nil => exact ⟨hmn, List.Sublist.refl [], fun _ ↦ rfl, Nat.le_refl 0⟩
  | append_singleton ops o ih =>
    have hnodup := (follows_after (hm.trans_le hmn) ops).recent.nodup
    rw [after_concat, after_concat]
    exact ih.perform hnodup o

/-- A larger cache never loses a hit. Of two caches that go through the same operations, the one with no
less room holds every entry of the other, in the same order of use, and other entries among them; so it
finds what the other finds, and it has had no fewer hits since the last clearing. -/
theorem entries_after_sublist (hm : 0 < m) (hmn : m ≤ n) (ops : List (Operation κ α)) :
    let small := after (empty m hm) ops
    let large := after (empty n (hm.trans_le hmn)) ops
    small.entries.Sublist large.entries ∧
      (∀ k v, (small.lookup k).1 = some v → (large.lookup k).1 = some v) ∧
      small.hits ≤ large.hits := by
  intro small large
  have hincluded : Included small large := included_after hm hmn ops
  have hnodup : large.keys.Nodup := (follows_after (hm.trans_le hmn) ops).recent.nodup
  refine ⟨hincluded.sublist, fun k v hfound ↦ ?_, hincluded.hits_le⟩
  rw [fst_lookup] at hfound ⊢
  exact hincluded.find?_eq_some hnodup hfound

/-- A key that only the larger cache still holds is used there, and outlives one that both held. -/
theorem entries_after_sublist_parting :
    let ops : List (Operation Nat Nat) := [
      .insert 7 70, .clear, .insert 1 10, .insert 2 20, .insert 3 30, .lookup 1, .lookup 2,
      .lookup 1, .insert 3 31, .insert 4 40]
    let small := after (empty 2 Nat.two_pos) ops
    let large := after (empty 3 (by decide)) ops
    0 < 2 ∧ 2 ≤ 3 ∧ small.entries.Sublist large.entries ∧ small.keys = [4, 3] ∧
      large.keys = [4, 3, 1] ∧ small.hits = 1 ∧ large.hits = 3 := by
  intro ops small large
  have hle : 2 ≤ 3 := by decide
  obtain ⟨hsublist, -, -⟩ := entries_after_sublist Nat.two_pos hle ops
  exact ⟨Nat.two_pos, hle, hsublist, by decide, by decide, by decide, by decide⟩

end CodeAtlas.Cache
