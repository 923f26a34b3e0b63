import CodeAtlas.Text.Basic

/-!
# Caches

A cache holds at most `capacity` entries and drops the one that has not been used for longest. The
entries stand in a list, the one used last at the front; a lookup that finds its key moves the entry
to the front, and so does an insertion. The counters tell what happened since the last clearing.
Main statements: `ofCapacity_error_iff`, only a capacity below one is refused, and `find?_insert_self`,
what is stored is found.
-/

namespace CodeAtlas

/-- A bounded store of values under keys. -/
structure Cache (κ α : Type) where
  capacity : Nat
  /-- The entries, the one used last first. -/
  entries : List (κ × α)
  hits : Nat
  misses : Nat
  evictions : Nat
  capacity_pos : 0 < capacity

namespace Cache

variable {κ α : Type}

/-- A cache without entries. -/
def empty (capacity : Nat) (h : 0 < capacity) : Cache κ α := ⟨capacity, [], 0, 0, 0, h⟩

/-- Why there is no cache of a given capacity. -/
inductive Refusal where
  /-- There is no room for an entry. -/
  | noRoom
  deriving DecidableEq

/-- A refusal in words. -/
def Refusal.message : Refusal → Text
  | noRoom => Text.ofString "capacity must be at least 1"

/-- A cache of the given capacity, which must be at least one. -/
def ofCapacity (capacity : Int) : Except Refusal (Cache κ α) :=
  if h : 0 < capacity.toNat then .ok (empty capacity.toNat h) else .error .noRoom

/-- A cache of the given capacity, if there is one. -/
def ofCapacity? (capacity : Int) : Option (Cache κ α) := (ofCapacity capacity).toOption

/-- Only a capacity below one is refused, and for want of room. -/
theorem ofCapacity_error_iff (capacity : Int) (refusal : Refusal) :
    (ofCapacity capacity : Except Refusal (Cache κ α)) = .error refusal ↔
      capacity < 1 ∧ refusal = .noRoom := by
  unfold ofCapacity
  split
  next h =>
    constructor
    · intro hok
      cases hok
    · intro hlow
      omega
  next h =>
    constructor
    · intro herror
      cases herror
      exact ⟨by omega, rfl⟩
    · intro hlow
      rw [hlow.2]

/-- How many entries a cache holds. -/
def size (c : Cache κ α) : Nat := c.entries.length

/-- The size of a cache and what has happened since the last clearing. -/
structure Stats where
  size : Nat
  capacity : Nat
  hits : Nat
  misses : Nat
  evictions : Nat
  deriving DecidableEq

/-- The counters of a cache with its size and its capacity. -/
def stats (c : Cache κ α) : Stats := ⟨c.size, c.capacity, c.hits, c.misses, c.evictions⟩

/-- The keys of the entries, the one used last first. -/
def keys (c : Cache κ α) : List κ := c.entries.map (·.1)

variable [DecidableEq κ]

/-- Whether a key has an entry; this is no use of it. -/
def contains (c : Cache κ α) (k : κ) : Bool := c.entries.any (·.1 = k)

/-- The value of a key; this is no use of it. -/
def find? (c : Cache κ α) (k : κ) : Option α := (c.entries.find? (·.1 = k)).map (·.2)

/-- The entries without that of a key. -/
def without (k : κ) (es : List (κ × α)) : List (κ × α) := es.filter (·.1 ≠ k)

/-- The value of a key, which is used by this. -/
def lookup (c : Cache κ α) (k : κ) : Option α × Cache κ α :=
  match c.find? k with
  | none => (none, { c with misses := c.misses + 1 })
  | some v => (some v, { c with entries := (k, v) :: without k c.entries, hits := c.hits + 1 })

/-- Stores a value under a key. A new key displaces the entry used least recently if there is no
room. -/
def insert (c : Cache κ α) (k : κ) (v : α) : Cache κ α :=
  if c.contains k then { c with entries := (k, v) :: without k c.entries }
  else if c.capacity ≤ c.size then
    { c with entries := (k, v) :: c.entries.dropLast, evictions := c.evictions + 1 }
  else { c with entries := (k, v) :: c.entries }

/-- Drops all entries and sets the counters to zero; the number of entries dropped comes with it. -/
def clear (c : Cache κ α) : Nat × Cache κ α :=
  (c.size, { c with entries := [], hits := 0, misses := 0, evictions := 0 })

variable {c : Cache κ α} {k : κ} {v : α}

/-- A key that has no entry is missed. -/
theorem lookup_of_find?_eq_none (h : c.find? k = none) :
    c.lookup k = (none, { c with misses := c.misses + 1 }) := by
  rw [lookup, h]

/-- A key that has an entry is found, and the entry moves to the front. -/
theorem lookup_of_find?_eq_some (h : c.find? k = some v) :
    c.lookup k =
      (some v, { c with entries := (k, v) :: without k c.entries, hits := c.hits + 1 }) := by
  rw [lookup, h]

/-- What a lookup finds. -/
theorem fst_lookup (c : Cache κ α) (k : κ) : (c.lookup k).1 = c.find? k := by
  cases h : c.find? k with
  | none => rw [lookup_of_find?_eq_none h]
  | some v => rw [lookup_of_find?_eq_some h]

/-- A key that is contained gets a new entry for its old one. -/
theorem insert_of_contains (h : c.contains k = true) (v : α) :
    c.insert k v = { c with entries := (k, v) :: without k c.entries } := if_pos h

/-- In a full cache a new key displaces the last entry. -/
theorem insert_of_full (h : c.contains k = false) (hfull : c.capacity ≤ c.size) (v : α) :
    c.insert k v =
      { c with entries := (k, v) :: c.entries.dropLast, evictions := c.evictions + 1 } := by
  rw [insert, h, if_neg Bool.false_ne_true, if_pos hfull]

/-- Where there is room a new key comes in front of the others. -/
theorem insert_of_room (h : c.contains k = false) (hroom : c.size < c.capacity) (v : α) :
    c.insert k v = { c with entries := (k, v) :: c.entries } := by
  rw [insert, h, if_neg Bool.false_ne_true, if_neg (Nat.not_le_of_lt hroom)]

/-- A key has the value stored last under it. -/
theorem find?_insert_self (c : Cache κ α) (k : κ) (v : α) : (c.insert k v).find? k = some v := by
  unfold insert
  split
  · simp [find?]
  · split <;> simp [find?]

end Cache

end CodeAtlas
