import CodeAtlas.Proofs.Text.Scalar

/-!
# Reading UTF-8

A sequence that has been begun leads to a code point in an interval, and the bounds of its next octet are
such that the interval holds no surrogate; each further octet only narrows it. So what is decoded is
scalar, whatever the octets are (`isScalar_decode`). In turn a code point that is no surrogate is spelled by
its octets (`spelling_encodePoint`), so the octets of a scalar text are read back to it, with or without
replacements (`decode_encode` and `decodeStrict_encode`).
-/

namespace CodeAtlas

/-- A number on either side of the surrogates is none of them, and nor is what stands for a number that
is out of range. -/
theorem CodePoint.isSurrogate_ofNat {n : Nat} (h : n < 0xD800 ∨ 0xDFFF < n) :
    (ofNat n).isSurrogate = false := by
  by_cases hlt : n < 0x110000
  · rw [isSurrogate, val_ofNat hlt, Bool.and_eq_false_iff, decide_eq_false_iff_not,
      decide_eq_false_iff_not]
    omega
  · rw [ofNat, dif_neg hlt]
    rfl

/-- The number of a code point is the number of no other. -/
theorem CodePoint.ofNat_of_eq_val {c : CodePoint} {n : Nat} (h : n = c.val) : ofNat n = c := by
  subst h
  exact ext (val_ofNat c.isLt)

namespace Utf8

/-! ### What is decoded -/

namespace Pending

/-- A sequence has been begun well: all numbers that it can lead to lie on one side of the surrogates.
With three octets missing they all lie above. -/
inductive Sound : Pending → Prop where
  | one {bits lower upper : Nat}
      (h : bits * 0x40 + (upper - 0x80) < 0xD800 ∨ 0xDFFF < bits * 0x40 + (lower - 0x80)) :
      Sound ⟨bits, 1, lower, upper⟩
  | two {bits lower upper : Nat} (h : (bits * 0x40 + (upper - 0x80)) * 0x40 + 0x3F < 0xD800 ∨
      0xDFFF < (bits * 0x40 + (lower - 0x80)) * 0x40) : Sound ⟨bits, 2, lower, upper⟩
  | three {bits lower upper : Nat} (h : 0xDFFF < (bits * 0x40 + (lower - 0x80)) * 0x1000) :
      Sound ⟨bits, 3, lower, upper⟩

/-- An octet within the bounds narrows the interval down. -/
theorem Sound.next {p : Pending} (h : p.Sound) {n : Nat} (hlower : p.lower ≤ n)
    (hupper : n ≤ p.upper) (hmissing : ¬p.missing ≤ 1) :
    Sound ⟨p.bits * 0x40 + (n - 0x80), p.missing - 1, 0x80, 0xBF⟩ := by
  obtain ⟨bits, missing, lower, upper⟩ := p
  dsimp only at hlower hupper hmissing ⊢
  cases h with
  | one => exact absurd (Nat.le_refl 1) hmissing
  | two h => exact .one (by omega)
  | three h => exact .two (by omega)

/-- The last octet leads to no surrogate. -/
theorem Sound.isSurrogate {p : Pending} (h : p.Sound) {n : Nat} (hlower : p.lower ≤ n)
    (hupper : n ≤ p.upper) (hmissing : p.missing ≤ 1) :
    (CodePoint.ofNat (p.bits * 0x40 + (n - 0x80))).isSurrogate = false := by
  obtain ⟨bits, missing, lower, upper⟩ := p
  dsimp only at hlower hupper hmissing ⊢
  cases h with
  | one h => exact CodePoint.isSurrogate_ofNat (by omega)
  | two | three => omega

end Pending

/-- What the first octet of a sequence says leads to no surrogate. -/
def Opening.Sound : Opening → Prop
  | whole c => c.isSurrogate = false
  | begun p => p.Sound
  | malformed => True

/-- An octet of its own is a code point of ASCII, and the others begin sequences well. -/
theorem sound_opening (b : UInt8) : (opening b).Sound := by
  unfold opening
  have hb := b.toNat_lt
  generalize b.toNat = n at hb ⊢
  dsimp only
  split
  next h => exact CodePoint.isSurrogate_ofNat (.inl (by omega))
  next =>
    split
    next => trivial
    next =>
      split
      next => exact .one (.inl (by omega))
      next =>
        split
        next => exact .two (by split <;> split <;> omega)
        next =>
          split
          next => exact .three (by split <;> omega)
          next => trivial

/-- A whole code point is no surrogate. -/
theorem isSurrogate_of_whole {b : UInt8} {c : CodePoint} (h : opening b = .whole c) :
    c.isSurrogate = false := by
  have hsound := sound_opening b
  rwa [h] at hsound

theorem Pending.Sound.forall_mem_some {p : Pending} (h : p.Sound) : ∀ q ∈ some p, q.Sound := by
  rintro _ ⟨⟩
  exact h

/-- A sequence is begun well. -/
theorem sound_of_begun {b : UInt8} {p : Pending} (h : opening b = .begun p) : p.Sound := by
  have hsound := sound_opening b
  rwa [h] at hsound

/-- What is decoded after a sequence that has been begun well is scalar. -/
theorem isScalar_decodeAfter (bs : List UInt8) {p? : Option Pending} (h : ∀ p ∈ p?, p.Sound) :
    (decodeAfter p? bs).isScalar = true := by
  have hnone : ∀ p ∈ (none : Option Pending), p.Sound := fun _ hp ↦ nomatch hp
  have hreplacement : CodePoint.replacement.isSurrogate = false := rfl
  fun_induction decodeAfter p? bs with
  | case1 => rfl
  | case2 => rfl
  | case3 b bs c hopening ih => simp [isSurrogate_of_whole hopening, ih hnone]
  | case4 b bs p hopening ih => exact ih (sound_of_begun hopening).forall_mem_some
  | case5 b bs hopening ih => simp [hreplacement, ih hnone]
  | case6 p b bs n hbounds bits hmissing ih =>
    rw [Bool.and_eq_true, decide_eq_true_iff, decide_eq_true_iff] at hbounds
    have hlast := (h p rfl).isSurrogate hbounds.1 hbounds.2 hmissing
    simp [bits, hlast, ih hnone]
  | case7 p b bs n hbounds bits hmissing ih =>
    rw [Bool.and_eq_true, decide_eq_true_iff, decide_eq_true_iff] at hbounds
    exact ih ((h p rfl).next hbounds.1 hbounds.2 hmissing).forall_mem_some
  | case8 p b bs n hbounds c hopening ih =>
    simp [hreplacement, isSurrogate_of_whole hopening, ih hnone]
  | case9 p b bs n hbounds q hopening ih =>
    simp [hreplacement, ih (sound_of_begun hopening).forall_mem_some]
  | case10 p b bs n hbounds hopening ih => simp [hreplacement, ih hnone]

/-- Whatever octets are decoded, the text is scalar. -/
theorem isScalar_decode (bs : List UInt8) : (decode bs).isScalar = true :=
  isScalar_decodeAfter bs fun _ hp ↦ nomatch hp

/-! ### What is encoded -/

theorem toNat_toUInt8 {n : Nat} (h : n < 0x100) : n.toUInt8.toNat = n := by
  simpa using h

theorem opening_of_lt {n : Nat} (h : n < 0x80) : opening n.toUInt8 = .whole (CodePoint.ofNat n) := by
  rw [opening, toNat_toUInt8 (by omega)]
  exact if_pos h

theorem opening_two {n : Nat} (h : 0x80 ≤ n) (h' : n < 0x800) :
    opening (0xC0 + n / 0x40).toUInt8 = .begun ⟨n / 0x40, 1, 0x80, 0xBF⟩ := by
  rw [opening, toNat_toUInt8 (by omega), if_neg (by omega), if_neg (by omega), if_pos (by omega),
    Nat.add_sub_cancel_left]

theorem opening_three {n : Nat} (h : n < 0x10000) :
    opening (0xE0 + n / 0x1000).toUInt8 = .begun ⟨n / 0x1000, 2,
      if n < 0x1000 then 0xA0 else 0x80, if n / 0x1000 = 0xD then 0x9F else 0xBF⟩ := by
  have hfirst : 0xE0 + n / 0x1000 = 0xE0 ↔ n < 0x1000 := by omega
  have hsurrogates : 0xE0 + n / 0x1000 = 0xED ↔ n / 0x1000 = 0xD := by omega
  rw [opening, toNat_toUInt8 (by omega), if_neg (by omega), if_neg (by omega), if_neg (by omega),
    if_pos (by omega), Nat.add_sub_cancel_left]
  simp only [hfirst, hsurrogates]

theorem opening_four {n : Nat} (h : n < 0x110000) :
    opening (0xF0 + n / 0x40000).toUInt8 = .begun ⟨n / 0x40000, 3,
      if n < 0x40000 then 0x90 else 0x80, if n / 0x40000 = 4 then 0x8F else 0xBF⟩ := by
  have hfirst : 0xF0 + n / 0x40000 = 0xF0 ↔ n < 0x40000 := by omega
  have hlast : 0xF0 + n / 0x40000 = 0xF4 ↔ n / 0x40000 = 4 := by omega
  rw [opening, toNat_toUInt8 (by omega), if_neg (by omega), if_neg (by omega), if_neg (by omega),
    if_neg (by omega), if_pos (by omega), Nat.add_sub_cancel_left]
  simp only [hfirst, hlast]

/-- Octets complete a sequence that has been begun, to a code point. -/
inductive Completes : Pending → List UInt8 → CodePoint → Prop where
  | last {p : Pending} {n : Nat} {c : CodePoint} (hn : n < 0x100) (hlower : p.lower ≤ n)
      (hupper : n ≤ p.upper) (hmissing : p.missing ≤ 1) (hc : p.bits * 0x40 + (n - 0x80) = c.val) :
      Completes p [n.toUInt8] c
  | next {p : Pending} {n : Nat} {bs : List UInt8} {c : CodePoint} (hn : n < 0x100)
      (hlower : p.lower ≤ n) (hupper : n ≤ p.upper) (hmissing : ¬p.missing ≤ 1)
      (h : Completes ⟨p.bits * 0x40 + (n - 0x80), p.missing - 1, 0x80, 0xBF⟩ bs c) :
      Completes p (n.toUInt8 :: bs) c

/-- The octets of a code point: one that stands for it, or one that begins a sequence and others that
complete it. -/
inductive Spelling (c : CodePoint) : List UInt8 → Prop where
  | whole {b : UInt8} (h : opening b = .whole c) : Spelling c [b]
  | begun {b : UInt8} {p : Pending} {bs : List UInt8} (h : opening b = .begun p)
      (hbs : Completes p bs c) : Spelling c (b :: bs)

/-- A code point that is no surrogate is spelled by its octets. -/
theorem spelling_encodePoint {c : CodePoint} (h : c.isSurrogate = false) :
    Spelling c (encodePoint c) := by
  have hc := c.isLt
  unfold encodePoint
  dsimp only
  split
  next h1 => exact .whole ((opening_of_lt h1).trans (congrArg _ (CodePoint.ofNat_of_eq_val rfl)))
  next h1 =>
    split
    next h2 =>
      exact .begun (opening_two (by omega) h2)
        (.last (by omega) (by dsimp only; omega) (by dsimp only; omega) (Nat.le_refl 1)
          (by dsimp only; omega))
    next h2 =>
      split
      next h3 =>
        have hside : c.val < 0xD800 ∨ 0xDFFF < c.val := by
          rw [CodePoint.isSurrogate, Bool.and_eq_false_iff, decide_eq_false_iff_not,
            decide_eq_false_iff_not] at h
          omega
        exact .begun (opening_three h3)
          (.next (by omega) (by dsimp only; split <;> omega) (by dsimp only; split <;> omega)
            (by dsimp only; omega)
            (.last (by omega) (by dsimp only; omega) (by dsimp only; omega) (Nat.le_refl 1)
              (by dsimp only; omega)))
      next h3 =>
        exact .begun (opening_four hc)
          (.next (by omega) (by dsimp only; split <;> omega) (by dsimp only; split <;> omega)
            (by dsimp only; omega)
            (.next (by omega) (by dsimp only; omega) (by dsimp only; omega) (by dsimp only; omega)
              (.last (by omega) (by dsimp only; omega) (by dsimp only; omega) (Nat.le_refl 1)
                (by dsimp only; omega))))

/-! ### What is read back -/

/-- A sequence that is completed is read as its code point. -/
theorem Completes.decodeAfter_append {p : Pending} {bs : List UInt8} {c : CodePoint}
    (h : Completes p bs c) (rest : List UInt8) :
    decodeAfter (some p) (bs ++ rest) = c :: decodeAfter none rest := by
  induction h with
  | last hn hlower hupper hmissing hc =>
    rw [List.singleton_append, decodeAfter, toNat_toUInt8 hn]
    simp [hlower, hupper, hmissing, CodePoint.ofNat_of_eq_val hc]
  | next hn hlower hupper hmissing h ih =>
    rw [List.cons_append, decodeAfter, toNat_toUInt8 hn]
    simp [hlower, hupper, hmissing, ih]

/-- The same, for strict reading. -/
theorem Completes.decodeStrictFrom_append {p : Pending} {bs : List UInt8} {c : CodePoint}
    (h : Completes p bs c) (first : UInt8) (start pos : Nat) (rest : List UInt8) :
    decodeStrictFrom (some (p, first, start)) pos (bs ++ rest) =
      (decodeStrictFrom none (pos + bs.length) rest).map (c :: ·) := by
  induction h generalizing pos with
  | last hn hlower hupper hmissing hc =>
    rw [List.singleton_append, decodeStrictFrom, toNat_toUInt8 hn]
    simp [hlower, hupper, hmissing, CodePoint.ofNat_of_eq_val hc]
  | next hn hlower hupper hmissing h ih =>
    rw [List.cons_append, decodeStrictFrom, toNat_toUInt8 hn, List.length_cons, ← Nat.add_assoc,
      Nat.add_right_comm pos]
    simp [hlower, hupper, hmissing, ih]

variable {c : CodePoint}

/-- The octets of a code point that is no surrogate are read back to it. -/
theorem decode_encodePoint_append (h : c.isSurrogate = false) (rest : List UInt8) :
    decode (encodePoint c ++ rest) = c :: decode rest := by
  have hspelling := spelling_encodePoint h
  generalize encodePoint c = bs at hspelling ⊢
  cases hspelling with
  | whole hopening =>
    rw [decode, List.singleton_append, decodeAfter, hopening]
    rfl
  | begun hopening hbs =>
    rw [decode, List.cons_append, decodeAfter, hopening]
    exact hbs.decodeAfter_append rest

/-- The same, for strict reading. -/
theorem decodeStrictFrom_encodePoint (h : c.isSurrogate = false) (pos : Nat) (rest : List UInt8) :
    decodeStrictFrom none pos (encodePoint c ++ rest) =
      (decodeStrictFrom none (pos + width c) rest).map (c :: ·) := by
  have hspelling := spelling_encodePoint h
  rw [← length_encodePoint]
  generalize encodePoint c = bs at hspelling ⊢
  cases hspelling with
  | whole hopening =>
    rw [List.singleton_append, decodeStrictFrom, hopening]
    rfl
  | begun hopening hbs =>
    rw [List.cons_append, decodeStrictFrom, hopening, List.length_cons, ← Nat.add_assoc,
      Nat.add_right_comm pos]
    exact hbs.decodeStrictFrom_append _ _ _ rest

/-- A scalar text is read back from its octets. -/
theorem decode_encode {t : Text} (h : t.isScalar = true) : decode (encode t) = t := by
  induction t with
  | nil => rfl
  | cons c cs ih =>
    rw [Text.isScalar_cons, Bool.and_eq_true, Bool.not_eq_true'] at h
    rw [encode, List.flatMap_cons, decode_encodePoint_append h.1]
    exact congrArg (c :: ·) (ih h.2)

/-- The same, for strict reading. -/
theorem decodeStrict_encode {t : Text} (h : t.isScalar = true) : decodeStrict (encode t) = .ok t := by
  have hfrom (pos : Nat) : decodeStrictFrom none pos (encode t) = .ok t := by
    induction t generalizing pos with
    | nil => rfl
    | cons c cs ih =>
      rw [Text.isScalar_cons, Bool.and_eq_true, Bool.not_eq_true'] at h
      rw [encode, List.flatMap_cons, decodeStrictFrom_encodePoint h.1]
      exact congrArg (Except.map (c :: ·)) (ih h.2 _)
  exact hfrom 0

end Utf8

end CodeAtlas
