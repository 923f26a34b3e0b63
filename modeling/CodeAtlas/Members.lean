import CodeAtlas.Text.Basic

/-!
# Keyed entries in order

`Members α` is a list of entries with keys, in the order in which the keys first came. `put` keeps
the place of a key that is there, and `get?` finds the value of a key. Main statement: `get?_put`.
-/

namespace CodeAtlas

/-- Entries with keys, in the order of the keys' first appearance. -/
abbrev Members (α : Type) := List (Text × α)

namespace Members

variable {α : Type}

/-- Sets the value of a key, at its old place if it has one and at the end otherwise. -/
def put (k : Text) (v : α) : Members α → Members α
  | [] => [(k, v)]
  | (k', v') :: ms => if k' = k then (k, v) :: ms else (k', v') :: put k v ms

/-- The value of a key. -/
def get? (k : Text) : Members α → Option α
  | [] => none
  | (k', v) :: ms => if k' = k then some v else get? k ms

/-- Gives a key a value, unless it has one. -/
def putNew (k : Text) (v : α) (ms : Members α) : Members α :=
  if (get? k ms).isSome then ms else put k v ms

/-- Puts pairs one after the other: a later value replaces an earlier one of the same key. -/
def ofPairs (ps : List (Text × α)) : Members α := ps.foldl (fun ms p ↦ put p.1 p.2 ms) []

/-- A key that has been put has the value put, and all others keep theirs. -/
theorem get?_put (k k' : Text) (v : α) (ms : Members α) :
    get? k' (put k v ms) = if k = k' then some v else get? k' ms := by
  induction ms with
  | nil => simp [put, get?]
  | cons m ms ih =>
    obtain ⟨x, y⟩ := m
    unfold put
    split
    next h =>
      subst h
      simp only [get?]
      split <;> rfl
    next h =>
      simp only [get?, ih]
      split
      next hx =>
        subst hx
        rw [if_neg fun e ↦ h e.symm]
      next hx => rfl

/-- A key that has a value keeps it. -/
theorem get?_putNew (k k' : Text) (v : α) (ms : Members α) :
    get? k' (putNew k v ms) = (get? k' ms).or (if k = k' then some v else none) := by
  unfold putNew
  split
  next h =>
    split
    next hk =>
      subst hk
      exact (Option.or_of_isSome h).symm
    next hk => exact (Option.or_none).symm
  next h =>
    rw [get?_put]
    split
    next hk =>
      subst hk
      rw [Option.not_isSome_iff_eq_none.1 h, Option.none_or]
    next hk => exact (Option.or_none).symm

end Members

end CodeAtlas
