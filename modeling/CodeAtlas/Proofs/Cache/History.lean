import CodeAtlas.Proofs.Cache.Recency
import Mathlib.Data.List.Induction

/-!
# Caches and their histories

A sequence of operations on a cache and the answers to them make its history. The history alone tells
what the cache holds: its keys are the ones used last, and each of them has the value stored last under
it. The invariant of a history is `Follows`, with one step lemma for all operations. Main statement:
`keys_after`.
-/

namespace CodeAtlas.Cache

/-- An operation on a cache. -/
inductive Operation (κ α : Type) where
  | lookup (k : κ)
  | insert (k : κ) (v : α)
  | contains (k : κ)
  | size
  | stats
  | capacity
  | clear

/-- The answer to an operation. -/
inductive Answer (α : Type) where
  | found (v : Option α)
  | stored
  | contained (b : Bool)
  | size (n : Nat)
  | stats (s : Stats)
  | capacity (n : Nat)
  /-- How many entries were dropped. -/
  | cleared (dropped : Nat)

variable {κ α : Type}

/-- An operation stores a value under a key. -/
def Operation.stored? [DecidableEq κ] (k : κ) : Operation κ α → Option α
  | insert k' v => if k' = k then some v else none
  | _ => none

/-- The value stored last under a key. -/
def latest? [DecidableEq κ] (ops : List (Operation κ α)) (k : κ) : Option α :=
  ops.reverse.findSome? (Operation.stored? k)

/-- An operation with its answer. -/
structure Event (κ α : Type) where
  operation : Operation κ α
  answer : Answer α

/-- What an event means for the order of use: storing a key and finding a key touch it. -/
def Event.use? : Event κ α → Option (Use κ)
  | ⟨.insert k _, _⟩ => some (.touch k)
  | ⟨.lookup k, .found (some _)⟩ => some (.touch k)
  | ⟨.clear, _⟩ => some .clear
  | _ => none

/-- The keys that a history touches after its last clearing, the latest touch first. -/
def touchedIn (es : List (Event κ α)) : List κ := touched (es.filterMap Event.use?)

/-- The touches of a history after one more event. -/
theorem touchedIn_concat (es : List (Event κ α)) (e : Event κ α) :
    touchedIn (es ++ [e]) = e.use?.elim (touchedIn es) (Use.after (touchedIn es)) := by
  rw [touchedIn, List.filterMap_append, touched, List.foldl_append]
  cases hu : e.use? with
  | none => simp [hu, touchedIn, touched]
  | some u => simp [hu, touchedIn, touched]

variable [DecidableEq κ]

/-- Carries out an operation. -/
def perform (c : Cache κ α) : Operation κ α → Answer α × Cache κ α
  | .lookup k => (.found (c.lookup k).1, (c.lookup k).2)
  | .insert k v => (.stored, c.insert k v)
  | .contains k => (.contained (c.contains k), c)
  | .size => (.size c.size, c)
  | .stats => (.stats c.stats, c)
  | .capacity => (.capacity c.capacity, c)
  | .clear => (.cleared c.clear.1, c.clear.2)

/-- The cache after several operations. -/
def after (c : Cache κ α) (ops : List (Operation κ α)) : Cache κ α :=
  ops.foldl (fun c o ↦ (c.perform o).2) c

/-- The history of several operations. -/
def history (c : Cache κ α) : List (Operation κ α) → List (Event κ α)
  | [] => []
  | o :: os => ⟨o, (c.perform o).1⟩ :: history (c.perform o).2 os

theorem after_concat (c : Cache κ α) (ops : List (Operation κ α)) (o : Operation κ α) :
    c.after (ops ++ [o]) = ((c.after ops).perform o).2 := by
  simp [after]

theorem history_concat (c : Cache κ α) (ops : List (Operation κ α)) (o : Operation κ α) :
    c.history (ops ++ [o]) = c.history ops ++ [⟨o, ((c.after ops).perform o).1⟩] := by
  induction ops generalizing c with
  | nil => rfl
  | cons p ps ih => exact congrArg (_ :: ·) (ih (c.perform p).2)

theorem latest?_concat (ops : List (Operation κ α)) (o : Operation κ α) (k : κ) :
    latest? (ops ++ [o]) k = (o.stored? k).or (latest? ops k) := by
  rw [latest?, List.reverse_append, List.reverse_singleton, List.singleton_append,
    List.findSome?_cons]
  cases o.stored? k <;> rfl

/-! ### One operation -/

/-- The entries of a cache are what its history says. -/
structure Follows (capacity : Nat) (ops : List (Operation κ α)) (es : List (Event κ α))
    (c : Cache κ α) : Prop where
  recent : Recent capacity (touchedIn es) c
  latest : c.All fun k v ↦ latest? ops k = some v

variable {capacity : Nat} {c : Cache κ α} {ops : List (Operation κ α)} {es : List (Event κ α)}

/-- An operation that neither touches a key nor drops the entries leaves them as they are. -/
theorem entries_perform_of_use?_eq_none {o : Operation κ α}
    (h : Event.use? ⟨o, (c.perform o).1⟩ = none) : (c.perform o).2.entries = c.entries := by
  cases o with
  | lookup k =>
    cases hl : (c.lookup k).1 with
    | none => exact entries_lookup_of_none hl
    | some v => simp [perform, hl, Event.use?] at h
  | insert k v => simp [Event.use?] at h
  | clear => simp [Event.use?] at h
  | contains | size | stats | capacity => rfl

/-- After an operation the keys are again the most recently touched ones. -/
theorem Recent.perform {ts : List κ} (hc : Recent capacity ts c) (o : Operation κ α) :
    Recent capacity ((Event.use? ⟨o, (c.perform o).1⟩).elim ts (Use.after ts))
      (c.perform o).2 := by
  cases o with
  | lookup k =>
    cases hl : (c.lookup k).1 with
    | none => simpa [Cache.perform, hl, Event.use?] using hc.lookup_of_none hl
    | some v => simpa [Cache.perform, hl, Event.use?, Use.after] using hc.lookup_of_some hl
  | insert k v => exact hc.insert k v
  | clear => exact hc.clear
  | contains | size | stats | capacity => exact hc

/-- The other entries of a cache in which a key is stored have other keys. -/
theorem Recent.insert_entries {ts : List κ} (hc : Recent capacity ts c) (k : κ) (v : α) :
    ∃ es, es ⊆ c.entries ∧ (c.insert k v).entries = (k, v) :: es ∧ ∀ e ∈ es, e.1 ≠ k := by
  obtain ⟨es, hsub, hes⟩ := exists_entries_insert c k v
  have hnodup := (hc.insert k v).nodup
  rw [keys, hes, List.map_cons, List.nodup_cons] at hnodup
  exact ⟨es, hsub, hes, fun e he heq ↦ hnodup.1 (List.mem_map.2 ⟨e, he, heq⟩)⟩

/-- After an operation each key again has the value stored last under it. -/
theorem Follows.latest_perform (hc : Follows capacity ops es c) (o : Operation κ α) :
    (c.perform o).2.All fun k v ↦ latest? (ops ++ [o]) k = some v := by
  -- What stores nothing leaves the latest values as they are, and the entries are old ones.
  have hkept : (∀ k, o.stored? k = none) → c.All fun k v ↦ latest? (ops ++ [o]) k = some v := by
    intro ho e he
    rw [latest?_concat, ho, Option.none_or]
    exact hc.latest e he
  cases o with
  | insert k v =>
    obtain ⟨rest, hsub, hentries, hne⟩ := hc.recent.insert_entries k v
    intro e he
    rw [perform, hentries] at he
    rw [latest?_concat]
    rcases List.mem_cons.1 he with rfl | he
    · simp [Operation.stored?]
    · have hother : Operation.stored? e.1 (.insert k v) = none := if_neg (hne e he).symm
      rw [hother, Option.none_or]
      exact hc.latest e (hsub he)
  | lookup k => exact (hkept fun _ ↦ rfl).lookup k
  | clear => exact all_clear c
  | contains | size | stats | capacity => exact hkept fun _ ↦ rfl

/-- A cache follows its history after one more operation. -/
theorem Follows.perform (hc : Follows capacity ops es c) (o : Operation κ α) :
    Follows capacity (ops ++ [o]) (es ++ [⟨o, (c.perform o).1⟩]) (c.perform o).2 := by
  refine ⟨?_, hc.latest_perform o⟩
  rw [touchedIn_concat]
  exact hc.recent.perform o

/-! ### Several operations -/

/-- A cache follows its history from the beginning. -/
theorem follows_after (h : 0 < capacity) (ops : List (Operation κ α)) :
    Follows capacity ops (history (empty capacity h) ops) (after (empty capacity h) ops) := by
  -- A history grows at its end, so the induction takes the last operation off.
  induction ops using List.reverseRecOn with
  | nil => exact ⟨recent_empty h, all_empty capacity h⟩
  | append_singleton ops o ih =>
    rw [after_concat, history_concat]
    exact ih.perform o

/-- A cache holds what its history says, whatever the operations were. Its keys, the one used last
first, are the distinct keys touched since the last clearing, the latest touch first, as many as there
is room for. Each key has the value stored last under it. An operation that touches no key, a lookup
that finds nothing among them, leaves the entries and their order. -/
theorem keys_after (h : 0 < capacity) (ops : List (Operation κ α)) :
    let c := after (empty capacity h) ops
    let distinct := (touchedIn (history (empty capacity h) ops)).eraseDups
    c.keys = distinct.take (min capacity distinct.length) ∧
      (∀ e ∈ c.entries, latest? ops e.1 = some e.2) ∧
      ∀ o, Event.use? ⟨o, (c.perform o).1⟩ = none → (c.perform o).2.entries = c.entries := by
  intro c distinct
  obtain ⟨hrecent, hlatest⟩ := follows_after h ops
  refine ⟨?_, hlatest, fun o ↦ entries_perform_of_use?_eq_none⟩
  calc
    c.keys = distinct.take capacity := hrecent.keys_eq
    _ = distinct.take (min capacity distinct.length) := List.take_eq_take_min

/-- A key is displaced, missed, replaced in a full cache and stored again after a clearing. -/
theorem keys_after_displacing :
    let ops : List (Operation Nat Nat) := [
      .insert 1 10, .insert 2 20, .lookup 1, .insert 3 30, .lookup 2, .insert 1 11, .clear,
      .insert 2 21, .stats, .insert 1 12, .contains 2, .lookup 2, .lookup 3, .insert 4 40]
    let c := after (empty 2 Nat.two_pos) ops
    0 < 2 ∧ c.keys = [4, 2] ∧ ∀ e ∈ c.entries, latest? ops e.1 = some e.2 := by
  intro ops c
  obtain ⟨hkeys, hlatest, -⟩ := keys_after Nat.two_pos ops
  exact ⟨Nat.two_pos, hkeys.trans (by decide), hlatest⟩

end CodeAtlas.Cache
