import CodeAtlas.Cache

/-!
# The entries of a cache

An operation on a cache brings in at most the entry that it is given: a lookup moves an entry, an
insertion puts one in and may drop others, and a clearing drops all. So a property of keys and values
that all entries have is kept by every operation, and a lookup only finds values that have it.
-/

namespace CodeAtlas.Cache

variable {κ α : Type} {P : κ → α → Prop} {c : Cache κ α} {k : κ} {v : α}

/-- All entries of a cache have a property. -/
def All (P : κ → α → Prop) (c : Cache κ α) : Prop := ∀ e ∈ c.entries, P e.1 e.2

/-- An empty cache has no entries to speak of. -/
theorem all_empty (capacity : Nat) (h : 0 < capacity) : All P (empty capacity h) := by
  intro e he
  cases he

/-- A cache that is cleared has no entries to speak of. -/
theorem all_clear (c : Cache κ α) : All P c.clear.2 := by
  intro e he
  cases he

variable [DecidableEq κ]

/-- A value that is found has an entry. -/
theorem mem_entries_of_find? (h : c.find? k = some v) : (k, v) ∈ c.entries := by
  obtain ⟨⟨k', v'⟩, he, rfl⟩ := Option.map_eq_some_iff.1 h
  have hk : k' = k := by simpa using List.find?_some he
  exact hk ▸ List.mem_of_find?_eq_some he

/-- An insertion puts an entry in front of some that were there. -/
theorem exists_entries_insert (c : Cache κ α) (k : κ) (v : α) :
    ∃ es, es ⊆ c.entries ∧ (c.insert k v).entries = (k, v) :: es := by
  unfold insert
  split
  · exact ⟨without k c.entries, List.filter_sublist.subset, rfl⟩
  · split
    · exact ⟨c.entries.dropLast, List.dropLast_subset _, rfl⟩
    · exact ⟨c.entries, List.Subset.refl _, rfl⟩

/-- What a lookup finds has the property. -/
theorem All.of_lookup (hc : All P c) (h : (c.lookup k).1 = some v) : P k v := by
  rw [fst_lookup] at h
  exact hc _ (mem_entries_of_find? h)

/-- A lookup keeps the property. -/
theorem All.lookup (hc : All P c) (k : κ) : All P (c.lookup k).2 := by
  cases hf : c.find? k with
  | none =>
    rw [lookup_of_find?_eq_none hf]
    exact hc
  | some v =>
    rw [lookup_of_find?_eq_some hf]
    intro e he
    rcases List.mem_cons.1 he with rfl | he
    · exact hc _ (mem_entries_of_find? hf)
    · exact hc e (List.filter_sublist.subset he)

/-- An insertion keeps the property if the new entry has it. -/
theorem All.insert (hc : All P c) (h : P k v) : All P (c.insert k v) := by
  obtain ⟨es, hsub, hes⟩ := exists_entries_insert c k v
  intro e he
  rw [hes] at he
  rcases List.mem_cons.1 he with rfl | he
  · exact h
  · exact hc e (hsub he)

end CodeAtlas.Cache
