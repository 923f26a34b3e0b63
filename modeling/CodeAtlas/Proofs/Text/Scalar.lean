import CodeAtlas.Proofs.Text.Points
import CodeAtlas.Text.Utf8
import Mathlib.Data.List.TakeWhile

/-!
# Texts without surrogates

A text without surrogates is called scalar. Whatever is built of scalar texts by writing one behind the
other, joining, cutting or trimming is scalar again, and numbers and strings are scalar by themselves.
Exactly the scalar texts can be encoded strictly (`encodeStrict_of_isScalar`), and what is said of a
text that cannot be is scalar (`isScalar_message`).
-/

namespace CodeAtlas

namespace Text

theorem isScalar_iff {t : Text} : t.isScalar = true ↔ ∀ c ∈ t, c.isSurrogate = false := by
  simp [isScalar]

@[simp]
theorem isScalar_nil : isScalar [] = true := rfl

@[simp]
theorem isScalar_cons (c : CodePoint) (t : Text) :
    isScalar (c :: t) = (!c.isSurrogate && t.isScalar) := rfl

@[simp]
theorem isScalar_append (s t : Text) : (s ++ t).isScalar = (s.isScalar && t.isScalar) :=
  List.all_append

@[simp]
theorem isScalar_ofString (s : String) : (ofString s).isScalar = true := by
  refine isScalar_iff.2 fun c hc ↦ ?_
  obtain ⟨d, -, rfl⟩ := List.mem_map.1 hc
  exact CodePoint.isSurrogate_ofChar d

/-- What holds nothing but code points of a scalar text is scalar. -/
theorem isScalar_of_subset {s t : Text} (h : s ⊆ t) (ht : t.isScalar = true) :
    s.isScalar = true :=
  isScalar_iff.2 fun _ hc ↦ isScalar_iff.1 ht _ (h hc)

@[simp]
theorem isScalar_ofNat (n : Nat) : (ofNat n).isScalar = true := isScalar_ofString _

@[simp]
theorem isScalar_ofInt (n : Int) : (ofInt n).isScalar = true := by
  cases n <;> simp [ofInt]

theorem isSurrogate_hexDigit (n : Nat) : (hexDigit n).isSurrogate = false := by
  unfold hexDigit
  split
  next h =>
    rw [CodePoint.isSurrogate, CodePoint.val_ofNat (by omega)]
    simp
    omega
  next h =>
    rw [CodePoint.isSurrogate, CodePoint.val_ofNat (by omega)]
    simp
    omega

@[simp]
theorem isScalar_hexDigits (width n : Nat) : (hexDigits width n).isScalar = true := by
  induction width generalizing n with
  | zero => rfl
  | succ w ih => simp [hexDigits, ih, isSurrogate_hexDigit]

theorem isScalar_intercalate {sep : Text} {ts : List Text} (hsep : sep.isScalar = true)
    (hts : ∀ t ∈ ts, t.isScalar = true) : Text.isScalar (sep.intercalate ts) = true := by
  refine isScalar_iff.2 fun c hc ↦ ?_
  rcases mem_intercalate hc with hc | ⟨t, ht, hc⟩
  · exact isScalar_iff.1 hsep c hc
  · exact isScalar_iff.1 (hts t ht) c hc

theorem isScalar_flatMap {f : CodePoint → Text} {t : Text} (h : ∀ c ∈ t, (f c).isScalar = true) :
    isScalar (t.flatMap f) = true := by
  refine isScalar_iff.2 fun c hc ↦ ?_
  obtain ⟨d, hd, hc⟩ := List.mem_flatMap.1 hc
  exact isScalar_iff.1 (h d hd) c hc

theorem isScalar_collapse {t : Text} (h : t.isScalar = true) : (collapse t).isScalar = true := by
  refine isScalar_iff.2 fun c hc ↦ ?_
  rcases mem_collapse hc with rfl | ⟨hc, -⟩
  · decide
  · exact isScalar_iff.1 h c hc

/-- A text has no first surrogate exactly if it has none. -/
theorem firstSurrogates?_eq_none_iff {t : Text} :
    t.firstSurrogates? = none ↔ t.isScalar = true := by
  have hdrop : t.dropWhile (fun c ↦ !c.isSurrogate) = [] ↔ t.isScalar = true := by
    rw [List.dropWhile_eq_nil_iff, isScalar_iff]
    simp
  rw [← hdrop, firstSurrogates?]
  split
  next hnil => simp [hnil]
  next hne => simpa using hne

end Text

namespace Utf8

theorem encodeStrict_of_isScalar {t : Text} (h : t.isScalar = true) :
    encodeStrict t = .ok (encode t) := by
  rw [encodeStrict, Text.firstSurrogates?_eq_none_iff.2 h]

theorem isScalar_of_encodeStrict {t : Text} {octets : List UInt8} (h : encodeStrict t = .ok octets) :
    t.isScalar = true := by
  unfold encodeStrict at h
  split at h
  next hnone => exact Text.firstSurrogates?_eq_none_iff.1 hnone
  next => cases h

/-- A surrogate is shown by its digits. -/
theorem Unencodable.isScalar_message (u : Unencodable) : u.message.isScalar = true := by
  unfold message
  split <;> simp

end Utf8

end CodeAtlas
