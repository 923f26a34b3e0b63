import CodeAtlas.Proofs.Syntax.Location
import CodeAtlas.Syntax.View

/-!
# Texts of nodes

The text of a node is decoded from a slice of the octets of its source, and the slice may cut a code point
at either end. An octet that continues a sequence begins none, so each octet that is left of a code point
cut at the front is replaced by itself (`decode_tails_append`); the octets that are left of one cut at the
back begin a sequence that is not completed, and are replaced together (`decode_take_encodePoint`); all
others are read back. Main statement: `text_eq_slice`.
-/

namespace CodeAtlas

namespace Utf8

open CodePoint (replacement)

/-! ### One code point -/

/-- A sequence that breaks off is replaced as a whole. -/
theorem Completes.decodeAfter_take {p : Pending} {bs : List UInt8} {c : CodePoint}
    (h : Completes p bs c) {k : Nat} (hk : k < bs.length) :
    decodeAfter (some p) (bs.take k) = [replacement] := by
  induction h generalizing k with
  | last =>
    obtain rfl : k = 0 := by simpa using hk
    rfl
  | next hn hlower hupper hmissing h ih =>
    cases k with
    | zero => rfl
    | succ k =>
      rw [List.take_succ_cons, decodeAfter, toNat_toUInt8 hn]
      simpa [hlower, hupper, hmissing] using ih (Nat.lt_of_succ_lt_succ hk)

/-- A code point that breaks off is replaced as a whole. -/
theorem decode_take_encodePoint {c : CodePoint} (h : c.isSurrogate = false) {k : Nat} (hpos : 0 < k)
    (hk : k < width c) : decode ((encodePoint c).take k) = [replacement] := by
  have hspelling := spelling_encodePoint h
  rw [← length_encodePoint] at hk
  generalize encodePoint c = bs at hspelling hk ⊢
  cases hspelling with
  | whole =>
    rw [List.length_singleton] at hk
    omega
  | begun hopening hbs =>
    obtain ⟨k, rfl⟩ := Nat.exists_eq_add_one_of_ne_zero (Nat.ne_of_gt hpos)
    rw [decode, List.take_succ_cons, decodeAfter, hopening]
    exact hbs.decodeAfter_take (Nat.lt_of_succ_lt_succ hk)

/-- An octet that continues a sequence. -/
def IsTail (b : UInt8) : Prop := 0x80 ≤ b.toNat ∧ b.toNat < 0xC0

theorem isTail_toUInt8 {n : Nat} (h : 0x80 ≤ n) (h' : n < 0xC0) : IsTail n.toUInt8 := by
  rw [IsTail, toNat_toUInt8 (by omega)]
  exact ⟨h, h'⟩

/-- All octets of a code point but the first continue it. -/
theorem isTail_of_mem_tail {c : CodePoint} {b : UInt8} (h : b ∈ (encodePoint c).tail) : IsTail b := by
  have hc := c.isLt
  unfold encodePoint at h
  dsimp only at h
  split at h
  · cases h
  · split at h
    · rw [List.tail_cons, List.mem_singleton] at h
      subst h
      exact isTail_toUInt8 (by omega) (by omega)
    · split at h
      · simp only [List.tail_cons, List.mem_cons, List.not_mem_nil, or_false] at h
        rcases h with rfl | rfl <;> exact isTail_toUInt8 (by omega) (by omega)
      · simp only [List.tail_cons, List.mem_cons, List.not_mem_nil, or_false] at h
        rcases h with rfl | rfl | rfl <;> exact isTail_toUInt8 (by omega) (by omega)

/-- Octets that continue no sequence are replaced one by one. -/
theorem decode_tails_append {bs : List UInt8} (h : ∀ b ∈ bs, IsTail b) (rest : List UInt8) :
    decode (bs ++ rest) = List.replicate bs.length replacement ++ decode rest := by
  induction bs with
  | nil => rfl
  | cons b bs ih =>
    rw [List.forall_mem_cons] at h
    have hopening : opening b = .malformed := by
      obtain ⟨hlower, hupper⟩ := h.1
      rw [opening]
      exact (if_neg (by omega)).trans (if_pos (by omega))
    have hstep : decode (b :: (bs ++ rest)) = replacement :: decode (bs ++ rest) := by
      rw [decode, decodeAfter, hopening]
      rfl
    rw [List.cons_append, hstep, ih h.2]
    rfl

/-! ### Slices -/

/-- A code point of a text, and where its octets begin. -/
structure Placement where
  point : CodePoint
  start : Nat

/-- Where the octets of a code point end. -/
def Placement.stop (p : Placement) : Nat := p.start + width p.point

/-- Whether an octet belongs to a code point. -/
def Placement.holds (p : Placement) (octet : Nat) : Bool := p.start ≤ octet && octet < p.stop

theorem Placement.start_lt_stop (p : Placement) : p.start < p.stop := by
  unfold stop width
  split
  · omega
  · split
    · omega
    · split <;> omega

/-- The code points of a text, the octets of the first one of which begin at an offset. -/
def placements : Nat → Text → List Placement
  | _, [] => []
  | offset, c :: cs => ⟨c, offset⟩ :: placements (offset + width c) cs

/-- No code point begins in front of the offset. -/
theorem le_start_of_mem_placements {offset : Nat} {t : Text} {p : Placement}
    (h : p ∈ placements offset t) : offset ≤ p.start := by
  induction t generalizing offset with
  | nil => cases h
  | cons c cs ih =>
    rcases List.mem_cons.1 h with rfl | h
    · exact Nat.le_refl offset
    · exact Nat.le_trans (Nat.le_add_right offset (width c)) (ih h)

section

variable (start stop : Nat) (ps : List Placement)

/-- How many octets of a slice belong to code points that begin in front of it. -/
def severed : Nat :=
  (List.range' start (stop - start)).countP fun i ↦ ps.any fun p ↦ p.start < start && p.holds i

/-- The code points that lie within a slice. -/
def within : Text := (ps.filter fun p ↦ start ≤ p.start ∧ p.stop ≤ stop).map (·.point)

/-- Whether a code point begins in a slice and ends behind it. -/
def breaksOff : Bool := ps.any fun p ↦ start ≤ p.start ∧ p.start < stop ∧ stop < p.stop

/-- What is read in a slice. -/
def shown : Text :=
  List.replicate (severed start stop ps) replacement ++ within start stop ps ++
    if breaksOff start stop ps then [replacement] else []

variable {start stop ps} {p : Placement}

/-- The octets that are left of a code point come in front of those that are left of others behind it. -/
theorem severed_cons_of_lt (h : p.start < start) (hps : ∀ q ∈ ps, p.stop ≤ q.start) :
    severed start stop (p :: ps) = min p.stop stop - start + severed start stop ps := by
  have hsplit : List.range' start (stop - start) =
      List.range' start (min p.stop stop - start) ++
        List.range' (max start (min p.stop stop)) (stop - max start (min p.stop stop)) := by
    rw [show max start (min p.stop stop) = start + (min p.stop stop - start) by omega,
      List.range'_append_1]
    congr 1
    omega
  have hown : ∀ i ∈ List.range' start (min p.stop stop - start),
      (p :: ps).any (fun q ↦ q.start < start && q.holds i) = true := by
    intro i hi
    rw [List.mem_range'_1] at hi
    refine List.any_eq_true.2 ⟨p, List.mem_cons_self, ?_⟩
    simp only [Placement.holds, Bool.and_eq_true, decide_eq_true_eq]
    omega
  have hother : ∀ i ∈ List.range' start (min p.stop stop - start),
      ¬ps.any (fun q ↦ q.start < start && q.holds i) = true := by
    intro i hi hany
    rw [List.mem_range'_1] at hi
    obtain ⟨q, hq, hholds⟩ := List.any_eq_true.1 hany
    have hbegins := hps q hq
    simp only [Placement.holds, Bool.and_eq_true, decide_eq_true_eq] at hholds
    omega
  have hbehind : ∀ i ∈ List.range' (max start (min p.stop stop)) (stop - max start (min p.stop stop)),
      (p :: ps).any (fun q ↦ q.start < start && q.holds i) = true ↔
        ps.any (fun q ↦ q.start < start && q.holds i) = true := by
    intro i hi
    rw [List.mem_range'_1] at hi
    have hnot : p.holds i = false := by
      simp only [Placement.holds, Bool.and_eq_false_iff, decide_eq_false_iff_not]
      omega
    simp [hnot]
  rw [severed, severed, hsplit, List.countP_append, List.countP_append, List.countP_eq_length.2 hown,
    List.countP_eq_zero.2 hother, List.countP_congr hbehind, List.length_range', Nat.zero_add]

/-- What is left of a code point that begins in front of a slice. -/
theorem shown_cons_of_lt (h : p.start < start) (hps : ∀ q ∈ ps, p.stop ≤ q.start) :
    shown start stop (p :: ps) =
      List.replicate (min p.stop stop - start) replacement ++ shown start stop ps := by
  have hnot : ¬start ≤ p.start := Nat.not_le_of_lt h
  have hwithin : within start stop (p :: ps) = within start stop ps := by
    simp [within, hnot]
  have hbreaks : breaksOff start stop (p :: ps) = breaksOff start stop ps := by
    simp [breaksOff, hnot]
  rw [shown, severed_cons_of_lt h hps, hwithin, hbreaks, ← List.replicate_append_replicate,
    List.append_assoc, List.append_assoc, ← List.append_assoc _ (within start stop ps), ← shown]

/-- A code point that begins behind a slice. -/
theorem shown_cons_of_le (h : start ≤ p.start) (hstop : stop ≤ p.start) :
    shown start stop (p :: ps) = shown start stop ps := by
  have hlt := p.start_lt_stop
  have hnot : ¬p.stop ≤ stop := by omega
  have hnot' : ¬p.start < stop := by omega
  have hnot'' : ¬p.start < start := by omega
  simp [shown, severed, within, breaksOff, hnot, hnot', hnot'']

/-- Nothing is left of code points in front of a slice if none begins there. -/
theorem severed_eq_zero (h : ∀ p ∈ ps, start ≤ p.start) : severed start stop ps = 0 := by
  refine List.countP_eq_zero.2 fun i _ hany ↦ ?_
  obtain ⟨p, hp, hholds⟩ := List.any_eq_true.1 hany
  have hbegins := h p hp
  simp only [Bool.and_eq_true, decide_eq_true_eq] at hholds
  omega

/-- A code point within a slice, where none begins in front of the slice. -/
theorem shown_cons_of_within (h : start ≤ p.start) (hstop : p.stop ≤ stop)
    (hps : ∀ q ∈ ps, start ≤ q.start) :
    shown start stop (p :: ps) = p.point :: shown start stop ps := by
  have hnot : ¬stop < p.stop := Nat.not_lt_of_le hstop
  rw [shown, shown, severed_eq_zero hps, severed_eq_zero (List.forall_mem_cons.2 ⟨h, hps⟩)]
  simp [within, breaksOff, h, hstop, hnot]

/-- A code point that breaks off, where nothing of the slice is behind it. -/
theorem shown_cons_of_breaksOff (h : start ≤ p.start) (hlt : p.start < stop) (hstop : stop < p.stop)
    (hps : shown start stop ps = []) : shown start stop (p :: ps) = [replacement] := by
  have hnot : ¬p.start < start := Nat.not_lt_of_le h
  have hnot' : ¬p.stop ≤ stop := Nat.not_le_of_lt hstop
  simp only [shown, List.append_eq_nil_iff] at hps
  obtain ⟨⟨hsevered, hwithin⟩, -⟩ := hps
  have hzero : severed start stop (p :: ps) = severed start stop ps := by
    simp [severed, hnot]
  have hnone : within start stop (p :: ps) = within start stop ps := by
    simp [within, hnot']
  have hbreaks : breaksOff start stop (p :: ps) = true := by
    simp [breaksOff, h, hlt, hstop]
  rw [shown, hzero, hnone, hbreaks, hsevered, hwithin]
  rfl

end

/-- A slice that does not begin at the first octet holds none but tails. -/
theorem mem_tail_of_mem_slice {bs : List UInt8} {b : UInt8} {i j : Nat} (hi : 0 < i)
    (h : b ∈ (bs.take j).drop i) : b ∈ bs.tail := by
  obtain ⟨i, rfl⟩ := Nat.exists_eq_add_one_of_ne_zero (Nat.ne_of_gt hi)
  cases bs with
  | nil => simp at h
  | cons a bs =>
    cases j with
    | zero => simp at h
    | succ j =>
      rw [List.take_succ_cons, List.drop_succ_cons] at h
      exact List.mem_of_mem_take (List.mem_of_mem_drop h)

/-- A slice of the octets of a text is a slice of those of its first code point and of the others. -/
theorem slice_encode_cons (c : CodePoint) (cs : Text) (i j : Nat) :
    ((encode (c :: cs)).take j).drop i =
      ((encodePoint c).take j).drop i ++ ((encode cs).take (j - width c)).drop (i - width c) := by
  have hencode : encode (c :: cs) = encodePoint c ++ encode cs := List.flatMap_cons
  rw [hencode, List.take_append, List.drop_append, List.length_take, length_encodePoint]
  by_cases hj : width c ≤ j
  · rw [Nat.min_eq_right hj]
  · rw [Nat.sub_eq_zero_of_le (Nat.le_of_not_le hj), List.take_zero, List.drop_nil, List.drop_nil]

/-- What a slice of the octets of a text is decoded to. -/
theorem decode_slice {t : Text} (ht : t.isScalar = true) (offset start stop : Nat) :
    decode (((encode t).take (stop - offset)).drop (start - offset)) =
      shown start stop (placements offset t) := by
  -- The first code point is cut at the front, or lies within the slice, or is cut at the back, or lies
  -- behind the slice.
  induction t generalizing offset with
  | nil => simp [encode, placements, shown, severed, within, breaksOff, decode, decodeAfter]
  | cons c cs ih =>
    rw [Text.isScalar_cons, Bool.and_eq_true, Bool.not_eq_true'] at ht
    have hrest := ih ht.2 (offset + width c)
    have hps : ∀ p ∈ placements (offset + width c) cs, offset + width c ≤ p.start :=
      fun p hp ↦ le_start_of_mem_placements hp
    rw [slice_encode_cons, Nat.sub_sub, Nat.sub_sub, placements]
    rcases Nat.lt_or_ge offset start with hfront | hstart
    · have htails : ∀ b ∈ ((encodePoint c).take (stop - offset)).drop (start - offset), IsTail b :=
        fun b hb ↦ isTail_of_mem_tail (mem_tail_of_mem_slice (Nat.sub_pos_of_lt hfront) hb)
      have hlength : (((encodePoint c).take (stop - offset)).drop (start - offset)).length =
          min (offset + width c) stop - start := by
        rw [List.length_drop, List.length_take, length_encodePoint]
        omega
      rw [decode_tails_append htails, hrest, hlength,
        shown_cons_of_lt (p := ⟨c, offset⟩) hfront hps]
      rfl
    · rw [Nat.sub_eq_zero_of_le (show start ≤ offset + width c by omega), List.drop_zero] at hrest ⊢
      rw [Nat.sub_eq_zero_of_le hstart, List.drop_zero]
      rcases Nat.lt_or_ge stop (offset + width c) with hback | hwithin
      · rw [Nat.sub_eq_zero_of_le (Nat.le_of_lt hback), List.take_zero] at hrest ⊢
        rw [List.append_nil]
        rcases Nat.lt_or_ge offset stop with hlt | hbehind
        · rw [decode_take_encodePoint ht.1 (Nat.sub_pos_of_lt hlt) (by omega)]
          exact (shown_cons_of_breaksOff hstart hlt hback hrest.symm).symm
        · rw [Nat.sub_eq_zero_of_le hbehind, List.take_zero, hrest, shown_cons_of_le hstart hbehind]
      · have htake : (encodePoint c).take (stop - offset) = encodePoint c := by
          rw [List.take_of_length_le]
          rw [length_encodePoint]
          omega
        rw [htake, decode_encodePoint_append ht.1, hrest]
        have hbegun : ∀ q ∈ placements (offset + width c) cs, start ≤ q.start :=
          fun q hq ↦ Nat.le_trans (Nat.le_add_right_of_le hstart) (hps q hq)
        exact (shown_cons_of_within (p := ⟨c, offset⟩) hstart hwithin hbegun).symm

/-- The slice between the octets of what is in front of a text and of what is behind it. -/
theorem slice_encode_append (before inside behind : Text) :
    ((encode (before ++ inside ++ behind)).take (encode (before ++ inside)).length).drop
      (encode before).length = encode inside := by
  rw [encode_append (before ++ inside), List.take_left, encode_append, List.drop_left]

end Utf8

namespace Syntax.ConcreteNode

open CodePoint (replacement)

/-- The text of a node is what the source has there, whatever octets the node spans. It begins with one
U+FFFD for each octet of the span that is left of a code point in front of it; then come the code points
that lie within the span, and one more U+FFFD if a code point begins in the span and ends behind it. If the
span cuts no code point, the text is that part of the source. -/
theorem text_eq_slice {t : Text} (ht : t.isScalar = true) (n : ConcreteNode) :
    n.text (Utf8.encode t) =
        List.replicate (Utf8.severed n.head.start n.head.stop (Utf8.placements 0 t)) replacement ++
          Utf8.within n.head.start n.head.stop (Utf8.placements 0 t) ++
          (if Utf8.breaksOff n.head.start n.head.stop (Utf8.placements 0 t) then [replacement] else []) ∧
      ∀ before inside behind, t = before ++ inside ++ behind →
        n.head.start = (Utf8.encode before).length →
        n.head.stop = (Utf8.encode (before ++ inside)).length → n.text (Utf8.encode t) = inside := by
  refine ⟨Utf8.decode_slice ht 0 n.head.start n.head.stop, ?_⟩
  rintro before inside behind rfl hstart hstop
  have hinside : Text.isScalar inside = true := by
    simp only [Text.isScalar_append, Bool.and_eq_true] at ht
    exact ht.1.2
  rw [text, hstart, hstop, Utf8.slice_encode_append, Utf8.decode_encode hinside]

/-- A span that begins within `é` and ends within `€`, and one that cuts nothing. -/
theorem text_eq_slice_cutting :
    let t := Text.ofString "é😀b€"
    let cutting := node ⟨Text.ofString "identifier", 1, 9, true, false, false, none⟩ []
    let whole := node ⟨Text.ofString "identifier", 2, 7, true, false, false, none⟩ []
    t.isScalar = true ∧
      cutting.text (Utf8.encode t) = replacement :: Text.ofString "😀b" ++ [replacement] ∧
      whole.text (Utf8.encode t) = Text.ofString "😀b" := by
  intro t cutting whole
  have ht : t.isScalar = true := by decide
  refine ⟨ht, (text_eq_slice ht cutting).1.trans (by decide), ?_⟩
  exact (text_eq_slice ht whole).2 (Text.ofString "é") (Text.ofString "😀b") (Text.ofString "€")
    (by decide) (by decide) (by decide)

end Syntax.ConcreteNode

end CodeAtlas
