import CodeAtlas.Proofs.Text.Points
import CodeAtlas.Text.LetterCase

/-!
# Lower case and search

`Text.Lowered` leaves open what becomes of the letters beyond ASCII when a text is lower-cased, and even
allows it to depend on the letters around them. What ASCII text in front becomes is settled, and a space
never comes from anything else. `Text.lower` is one of these forms.
-/

namespace CodeAtlas

namespace CodePoint

/-- Whether a code point is an ASCII character or has one in its lower-case form, as the dotted capital I
and the Kelvin sign have. -/
def lowersToAscii (c : CodePoint) : Bool := c.val < 0x80 || c.val == 0x130 || c.val == 0x212A

/-- Nothing but the space has a lower-case form with a space. -/
theorem space_notMem_lower {c : CodePoint} (h : c ≠ space) : space ∉ c.lower := by
  have hval : c.val ≠ 0x20 := fun heq ↦ h (ext heq)
  intro hmem
  have hspace : ∃ d ∈ c.lower, d.val = 0x20 := ⟨space, hmem, rfl⟩
  unfold lower at hspace
  split at hspace
  next hcapital =>
    simp only [Bool.and_eq_true, decide_eq_true_eq] at hcapital
    obtain ⟨d, hd, hdval⟩ := hspace
    rw [List.mem_singleton.1 hd, val_ofNat (by omega)] at hdval
    omega
  next =>
    split at hspace
    · revert hspace
      decide
    · split at hspace
      · revert hspace
        decide
      · obtain ⟨d, hd, hdval⟩ := hspace
        rw [List.mem_singleton.1 hd] at hdval
        exact hval hdval

end CodePoint

open CodePoint (space)

namespace Text

/-! ### Search -/

/-- A text holds what stands at its start. -/
theorem contains_of_prefix {p t : Text} (h : p <+: t) : contains p t = true := by
  cases t with
  | nil => rw [List.prefix_nil.1 h]; rfl
  | cons c cs => rw [contains, List.isPrefixOf_iff_prefix.2 h, Bool.true_or]

/-- A text without one of its code points does not hold a text. -/
theorem contains_eq_false_of_notMem {c : CodePoint} {p t : Text} (hp : c ∈ p) (ht : c ∉ t) :
    contains p t = false := by
  induction t with
  | nil =>
    rw [contains]
    exact List.isEmpty_eq_false_iff.2 (List.ne_nil_of_mem hp)
  | cons d ds ih =>
    have hprefix : p.isPrefixOf (d :: ds) = false :=
      Bool.eq_false_iff.2 fun h ↦ ht ((List.isPrefixOf_iff_prefix.1 h).subset hp)
    rw [contains, hprefix, Bool.false_or]
    exact ih fun hmem ↦ ht (List.mem_cons_of_mem d hmem)

/-! ### Lower case beyond ASCII -/

/-- A lower-case form of a text: code points that have to do with ASCII characters have the lower-case form
of their own, and others any form beyond ASCII, even a different one in each place. -/
inductive Lowered : Text → Text → Prop
  | nil : Lowered [] []
  | ascii {c : CodePoint} {t u : Text} : c.lowersToAscii = true → Lowered t u →
    Lowered (c :: t) (c.lower ++ u)
  | other {c : CodePoint} {t u form : Text} : c.lowersToAscii = false →
    (∀ d ∈ form, 0x80 ≤ d.val) → Lowered t u → Lowered (c :: t) (form ++ u)

/-- The lower-case form of a text is one. -/
theorem lowered_lower (t : Text) : Lowered t t.lower := by
  induction t with
  | nil => exact .nil
  | cons c t ih =>
    by_cases h : c.lowersToAscii = true
    · exact .ascii h ih
    · have h := Bool.eq_false_iff.2 h
      have hnot : 0x80 ≤ c.val ∧ c.val ≠ 0x130 ∧ c.val ≠ 0x212A := by
        simpa [CodePoint.lowersToAscii, and_assoc] using h
      have hsame : c.lower = [c] := by
        obtain ⟨hbeyond, hdotted, hkelvin⟩ := hnot
        unfold CodePoint.lower
        rw [if_neg (by simp; omega), if_neg (by simpa using hkelvin),
          if_neg (by simpa using hdotted)]
      have hform : ∀ d ∈ c.lower, 0x80 ≤ d.val := by
        simpa [hsame] using hnot.1
      exact .other h hform ih

/-- ASCII text in front of another one is lower-cased by itself. -/
theorem Lowered.exists_eq_append {s t u : Text} (hs : ∀ c ∈ s, c.val < 0x80)
    (h : Lowered (s ++ t) u) : ∃ v, u = s.lower ++ v ∧ Lowered t v := by
  induction s generalizing u with
  | nil => exact ⟨u, rfl, h⟩
  | cons c s ih =>
    rw [List.forall_mem_cons] at hs
    cases h with
    | ascii _ h =>
      obtain ⟨v, rfl, hv⟩ := ih hs.2 h
      exact ⟨v, (List.append_assoc ..).symm, hv⟩
    | other hc => simp [CodePoint.lowersToAscii, hs.1] at hc

/-- A text without a space has no lower-case form with one. -/
theorem Lowered.space_notMem {t u : Text} (h : Lowered t u) (ht : space ∉ t) : space ∉ u := by
  induction h with
  | nil => exact List.not_mem_nil
  | ascii _ _ ih =>
    rw [List.mem_cons, not_or] at ht
    rw [List.mem_append, not_or]
    exact ⟨CodePoint.space_notMem_lower (Ne.symm ht.1), ih ht.2⟩
  | other _ hform _ ih =>
    rw [List.mem_cons, not_or] at ht
    rw [List.mem_append, not_or]
    exact ⟨fun hmem ↦ absurd (hform space hmem) (by decide), ih ht.2⟩

end Text

end CodeAtlas
