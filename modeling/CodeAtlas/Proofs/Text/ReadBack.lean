import CodeAtlas.Proofs.Text.Utf8
import Mathlib.Data.List.Basic

/-!
# Reading octets back

The first octet of a code point tells how many follow it, for surrogates as for their neighbours, so any
text is read back from its octets one code point after the other: `readBack` undoes `encode` for all
texts, be they scalar or not. For scalar texts the octets are those of the standard encoding of strings.
Main statements: `leftInverse_readBack` and `toUTF8_toString`.
-/

namespace CodeAtlas

namespace Utf8

/-! ### Any text -/

/-- How many octets follow the first octet of a code point. -/
def following (b : UInt8) : Nat :=
  if b.toNat < 0x80 then 0 else if b.toNat < 0xE0 then 1 else if b.toNat < 0xF0 then 2 else 3

/-- The bits that the first octet of a code point holds. -/
def leadingBits (b : UInt8) : Nat :=
  if b.toNat < 0x80 then b.toNat
  else if b.toNat < 0xE0 then b.toNat - 0xC0
  else if b.toNat < 0xF0 then b.toNat - 0xE0
  else b.toNat - 0xF0

/-- The code point of an octet and those that follow it. -/
def pointOf (b : UInt8) (bs : List UInt8) : CodePoint :=
  CodePoint.ofNat (bs.foldl (fun bits o ↦ bits * 0x40 + (o.toNat - 0x80)) (leadingBits b))

/-- Reads octets back, surrogates like any other code point. -/
def readBack : List UInt8 → Text
  | [] => []
  | b :: bs => pointOf b (bs.take (following b)) :: readBack (bs.drop (following b))
termination_by bs => bs.length
decreasing_by
  rw [List.length_drop, List.length_cons]
  omega

/-- The first octet of a code point tells how many follow, and with them it tells the code point. -/
theorem exists_encodePoint_eq_cons (c : CodePoint) :
    ∃ b bs, encodePoint c = b :: bs ∧ following b = bs.length ∧ pointOf b bs = c := by
  have hc := c.isLt
  unfold encodePoint
  dsimp only
  split
  next h1 =>
    have hfirst : c.val.toUInt8.toNat = c.val := toNat_toUInt8 (by omega)
    refine ⟨_, _, rfl, ?_, ?_⟩
    · rw [following, hfirst, if_pos h1, List.length_nil]
    · rw [pointOf, leadingBits, hfirst, if_pos h1, List.foldl_nil]
      exact CodePoint.ofNat_of_eq_val rfl
  next h1 =>
    split
    next h2 =>
      have hfirst : (0xC0 + c.val / 0x40).toUInt8.toNat = 0xC0 + c.val / 0x40 :=
        toNat_toUInt8 (by omega)
      refine ⟨_, _, rfl, ?_, ?_⟩
      · rw [following, hfirst, if_neg (by omega), if_pos (by omega)]
        rfl
      · rw [pointOf, leadingBits, hfirst, if_neg (by omega), if_pos (by omega), List.foldl_cons,
          toNat_toUInt8 (by omega), List.foldl_nil]
        exact CodePoint.ofNat_of_eq_val (by omega)
    next h2 =>
      split
      next h3 =>
        have hfirst : (0xE0 + c.val / 0x1000).toUInt8.toNat = 0xE0 + c.val / 0x1000 :=
          toNat_toUInt8 (by omega)
        refine ⟨_, _, rfl, ?_, ?_⟩
        · rw [following, hfirst, if_neg (by omega), if_neg (by omega), if_pos (by omega)]
          rfl
        · rw [pointOf, leadingBits, hfirst, if_neg (by omega), if_neg (by omega), if_pos (by omega),
            List.foldl_cons, toNat_toUInt8 (by omega), List.foldl_cons, toNat_toUInt8 (by omega),
            List.foldl_nil]
          exact CodePoint.ofNat_of_eq_val (by omega)
      next h3 =>
        have hfirst : (0xF0 + c.val / 0x40000).toUInt8.toNat = 0xF0 + c.val / 0x40000 :=
          toNat_toUInt8 (by omega)
        refine ⟨_, _, rfl, ?_, ?_⟩
        · rw [following, hfirst, if_neg (by omega), if_neg (by omega), if_neg (by omega)]
          rfl
        · rw [pointOf, leadingBits, hfirst, if_neg (by omega), if_neg (by omega), if_neg (by omega),
            List.foldl_cons, toNat_toUInt8 (by omega), List.foldl_cons, toNat_toUInt8 (by omega),
            List.foldl_cons, toNat_toUInt8 (by omega), List.foldl_nil]
          exact CodePoint.ofNat_of_eq_val (by omega)

/-- The octets of a code point are read back to it. -/
theorem readBack_encodePoint_append (c : CodePoint) (rest : List UInt8) :
    readBack (encodePoint c ++ rest) = c :: readBack rest := by
  obtain ⟨b, bs, hencode, hlength, hpoint⟩ := exists_encodePoint_eq_cons c
  rw [hencode, List.cons_append, readBack, hlength, List.take_left, List.drop_left, hpoint]

/-- Every text is read back from its octets. -/
theorem leftInverse_readBack : Function.LeftInverse readBack encode := by
  intro t
  induction t with
  | nil => rw [encode, List.flatMap_nil, readBack]
  | cons c cs ih => rw [encode, List.flatMap_cons, readBack_encodePoint_append, ← encode, ih]

/-! ### Scalar texts -/

/-- A code point that is no surrogate has the number of its character. -/
theorem toNat_toChar {c : CodePoint} (h : c.isSurrogate = false) : c.toChar.val.toNat = c.val := by
  have hc := c.isLt
  have hvalid : c.val.isValidChar := by
    rw [CodePoint.isSurrogate, Bool.and_eq_false_iff, decide_eq_false_iff_not,
      decide_eq_false_iff_not] at h
    unfold Nat.isValidChar
    omega
  rw [CodePoint.toChar, h, if_neg Bool.false_ne_true, Char.ofNat, dif_pos hvalid]
  rfl

/-- A code point that is no surrogate is encoded like its character. -/
theorem utf8EncodeChar_toChar {c : CodePoint} (h : c.isSurrogate = false) :
    String.utf8EncodeChar c.toChar = encodePoint c := by
  have hc := c.isLt
  simp only [String.utf8EncodeChar, toNat_toChar h, encodePoint, Nat.add_comm 0x80]
  split
  next h1 => exact (if_pos (by omega)).symm
  next h1 =>
    rw [if_neg (show ¬c.val < 0x80 by omega)]
    split
    next h2 =>
      rw [if_pos (by omega), show c.val / 0x40 % 0x20 + 0xC0 = 0xC0 + c.val / 0x40 by omega]
    next h2 =>
      rw [if_neg (show ¬c.val < 0x800 by omega)]
      split
      next h3 =>
        rw [if_pos (by omega), show c.val / 0x1000 % 0x10 + 0xE0 = 0xE0 + c.val / 0x1000 by omega]
      next h3 =>
        rw [if_neg (by omega), show c.val / 0x40000 % 8 + 0xF0 = 0xF0 + c.val / 0x40000 by omega]

/-- A scalar text is encoded like its string. -/
theorem toUTF8_toString {t : Text} (h : t.isScalar = true) :
    t.toString.toUTF8.data.toList = encode t := by
  rw [Text.toString, String.toUTF8_eq_toByteArray, String.toByteArray_ofList, List.utf8Encode,
    List.data_toByteArray, List.toList_toArray, List.flatMap_map, encode]
  exact List.flatMap_congr fun c hc ↦ utf8EncodeChar_toChar (Text.isScalar_iff.1 h c hc)

end Utf8

end CodeAtlas
