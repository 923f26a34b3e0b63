import CodeAtlas.Json.Reader
import CodeAtlas.Json.Writer

/-!
# Written texts are read back

A written text is read back code point by code point: what is escaped is read as what it stands for, and
anything else stands for itself. So an object whose values are texts is read back from what is written
of it. Main statements: `readText_writeText` and `read_write_texts`.
-/

namespace CodeAtlas.Json

open Text (quotationMark)

/-! ### Texts -/

variable {start p : Nat} {acc rest : Text}

/-- A quotation mark ends a text. -/
theorem readText_quotationMark :
    readText start acc (quotationMark :: rest) p = .ok (acc.reverse, ⟨rest, p + 1⟩) := by
  rw [readText.eq_def]
  rfl

/-- What needs no escape is read as it stands. -/
theorem readText_plain {c : CodePoint} (hq : c.val ≠ 0x22) (hb : c.val ≠ 0x5C) (hc : 0x20 ≤ c.val) :
    readText start acc (c :: rest) p = readText start (c :: acc) rest (p + 1) := by
  rw [readText.eq_def]
  simp [hq, hb, Nat.not_lt.mpr hc]

/-- An escape of two code points is read as what it stands for. -/
theorem readText_escape {d c : CodePoint} (hu : d.val ≠ 0x75) (h : escape? d = some c) :
    readText start acc (CodePoint.ofNat 0x5C :: d :: rest) p =
      readText start (c :: acc) rest (p + 2) := by
  have hb : (CodePoint.ofNat 0x5C).val = 0x5C := rfl
  rw [readText.eq_def]
  simp [h, hu, hb]

/-- A digit in base sixteen is read back. -/
theorem hexValue?_hexDigit : ∀ n < 16, hexValue? (Text.hexDigit n) = some n := by decide

/-- Four digits in base sixteen are read back. -/
theorem code?_hexDigit {k l m n : Nat} (hk : k < 16) (hl : l < 16) (hm : m < 16) (hn : n < 16) :
    code? (Text.hexDigit k) (Text.hexDigit l) (Text.hexDigit m) (Text.hexDigit n) =
      some (((k * 16 + l) * 16 + m) * 16 + n) := by
  simp [code?, hexValue?_hexDigit, hk, hl, hm, hn]

/-- An escape by number is read as the code point with that number, if it is no surrogate. -/
theorem readText_codeEscape {n : Nat} (hn : n < 0xD800) {e : CodePoint} :
    readText start acc (codeEscape n ++ e :: rest) p =
      readText start (CodePoint.ofNat n :: acc) (e :: rest) (p + 6) := by
  have hdigits : codeEscape n = CodePoint.ofNat 0x5C :: CodePoint.ofNat 0x75 ::
      [Text.hexDigit (n / 16 / 16 / 16 % 16), Text.hexDigit (n / 16 / 16 % 16),
        Text.hexDigit (n / 16 % 16), Text.hexDigit (n % 16)] := rfl
  have hcode := code?_hexDigit (k := n / 16 / 16 / 16 % 16) (l := n / 16 / 16 % 16)
    (m := n / 16 % 16) (n := n % 16) (by omega) (by omega) (by omega) (by omega)
  have hvalue : ((n / 16 / 16 / 16 % 16 * 16 + n / 16 / 16 % 16) * 16 + n / 16 % 16) * 16 + n % 16 =
      n := by omega
  rw [hvalue] at hcode
  have hb : (CodePoint.ofNat 0x5C).val = 0x5C := rfl
  have hu : (CodePoint.ofNat 0x75).val = 0x75 := rfl
  rw [hdigits, readText.eq_def]
  simp [hb, hu, hcode, Nat.not_le.mpr hn]

variable (start p acc rest)

/-- A code point is read back, whatever follows it. -/
theorem readText_writeCodePoint (c e : CodePoint) : ∃ p',
    readText start acc (writeCodePoint false c ++ e :: rest) p =
      readText start (c :: acc) (e :: rest) p' := by
  -- the short escapes, each of a code point that is known
  have hshort {n : Nat} (d : CodePoint) (hn : n < 0x110000) (hc : (c.val == n) = true)
      (hu : d.val ≠ 0x75) (hd : escape? d = some (CodePoint.ofNat n)) : ∃ p',
      readText start acc ([CodePoint.ofNat 0x5C, d] ++ e :: rest) p =
        readText start (c :: acc) (e :: rest) p' := by
    obtain rfl : c = CodePoint.ofNat n :=
      CodePoint.ext ((eq_of_beq hc).trans (CodePoint.val_ofNat hn).symm)
    exact ⟨p + 2, readText_escape hu hd⟩
  unfold writeCodePoint
  dsimp only
  split
  next h => exact hshort (CodePoint.ofNat 0x22) (by decide) h (by decide) rfl
  next hquote =>
  split
  next h => exact hshort (CodePoint.ofNat 0x5C) (by decide) h (by decide) rfl
  next hslash =>
  split
  next h => exact hshort (CodePoint.ofNat 0x6E) (by decide) h (by decide) rfl
  split
  next h => exact hshort (CodePoint.ofNat 0x72) (by decide) h (by decide) rfl
  split
  next h => exact hshort (CodePoint.ofNat 0x74) (by decide) h (by decide) rfl
  split
  next h => exact hshort (CodePoint.ofNat 0x62) (by decide) h (by decide) rfl
  split
  next h => exact hshort (CodePoint.ofNat 0x66) (by decide) h (by decide) rfl
  split
  next h =>
    have hc : CodePoint.ofNat c.val = c := CodePoint.ext (CodePoint.val_ofNat c.isLt)
    exact ⟨p + 6, by rw [readText_codeEscape (Nat.lt_trans h (by decide)), hc]⟩
  next hcontrol =>
    exact ⟨p + 1, readText_plain (by simpa using hquote) (by simpa using hslash)
      (Nat.not_lt.mp hcontrol)⟩

/-- A text is read back up to its closing quotation mark. -/
theorem readText_writeText (t : Text) : ∃ p',
    readText start acc (t.flatMap (writeCodePoint false) ++ quotationMark :: rest) p =
      .ok (acc.reverse ++ t, ⟨rest, p'⟩) := by
  induction t generalizing acc p with
  | nil => exact ⟨p + 1, by simp [readText_quotationMark]⟩
  | cons c cs ih =>
    obtain ⟨e, es, hes⟩ :
        ∃ e es, cs.flatMap (writeCodePoint false) ++ quotationMark :: rest = e :: es :=
      List.exists_cons_of_ne_nil (by simp)
    obtain ⟨p₁, h₁⟩ := readText_writeCodePoint start p acc es c e
    obtain ⟨p₂, h₂⟩ := ih p₁ (c :: acc)
    refine ⟨p₂, ?_⟩
    rw [List.flatMap_cons, List.append_assoc, hes, h₁, ← hes, h₂]
    simp

/-! ### Objects of texts -/

namespace Layout

/-- All on one line without blanks, with all but the controls as they are. -/
def plain : Layout := ⟨none, ",", ":", false, false, longExponent⟩

end Layout

/-- Texts with names, as an object. -/
def ofTexts (ms : List (Text × Text)) : List (Text × Json) := ms.map fun m ↦ (m.1, .text m.2)

/-- A written text and what follows it. -/
theorem writeText_append (t rest : Text) : writeText false t ++ rest =
    quotationMark :: (t.flatMap (writeCodePoint false) ++ quotationMark :: rest) := by
  simp [writeText]

/-- A text is read back as a value. -/
theorem readValue_writeText (fuel : Nat) (t : Text) : ∃ p',
    readValue (fuel + 1) ⟨writeText false t ++ rest, p⟩ = .ok (.text t, ⟨rest, p'⟩) := by
  obtain ⟨p', h⟩ := readText_writeText p (p + 1) [] rest t
  refine ⟨p', ?_⟩
  rw [writeText_append, readValue.eq_def]
  change (readText p [] _ (p + 1)).map _ = _
  rw [h]
  rfl

/-- A written member whose value is a text, and what follows it. -/
def writePair (k v rest : Text) : Text :=
  writeText false k ++ (Text.ofString ":" ++ (writeText false v ++ rest))

/-- A member whose value is a text is read back, and what follows it decides how to go on. -/
theorem readMembers_writePair (fuel more : Nat) (acc : List (Text × Json)) (k v : Text) : ∃ p',
    readMembers (fuel + 2) (more + 1) acc ⟨writePair k v rest, p⟩ =
      let c := (⟨rest, p'⟩ : Cursor).skipBlanks
      match c.after? "\x7d" with
      | some c => .ok (.object (Members.ofPairs ((k, .text v) :: acc).reverse), c)
      | none => match c.after? "," with
        | some c => readMembers (fuel + 2) more ((k, .text v) :: acc) c.skipBlanks
        | none => .error ⟨.comma, c.position⟩ := by
  let afterColon := writeText false v ++ rest
  let afterQuote :=
    k.flatMap (writeCodePoint false) ++ quotationMark :: (Text.ofString ":" ++ afterColon)
  obtain ⟨p₁, hname⟩ := readText_writeText p (p + 1) [] (Text.ofString ":" ++ afterColon) k
  obtain ⟨p₂, hvalue⟩ := readValue_writeText (p₁ + 1) rest fuel v
  refine ⟨p₂, ?_⟩
  have hquote : (⟨quotationMark :: afterQuote, p⟩ : Cursor).after? "\"" = some ⟨afterQuote, p + 1⟩ := rfl
  have hcolon : (⟨Text.ofString ":" ++ afterColon, p₁⟩ : Cursor).skipBlanks.after? ":" =
    some ⟨afterColon, p₁ + 1⟩ := rfl
  have hblanks : (⟨afterColon, p₁ + 1⟩ : Cursor).skipBlanks = ⟨afterColon, p₁ + 1⟩ := rfl
  have hread := readMembers.eq_def (fuel + 2) (more + 1) acc ⟨quotationMark :: afterQuote, p⟩
  simp only [hquote, afterQuote, hname, List.reverse_nil, List.nil_append, hcolon, hblanks] at hread
  simp only [afterColon, hvalue] at hread
  rw [writePair, writeText_append]
  exact hread

/-- How a further member is written. -/
theorem writeMembers_cons (k v : Text) (ms : List (Text × Text)) (rest : Text) :
    Layout.plain.writeMembers 1 (ofTexts ((k, v) :: ms)) ++ rest = Text.ofString "," ++
      writePair k v (Layout.plain.writeMembers 1 (ofTexts ms) ++ rest) := by
  simp [ofTexts, writePair, Layout.writeMembers, Layout.plain, Layout.lineStart, Layout.write,
    Layout.scalar]

/-- What is written of members is read back, up to the end of the object. -/
theorem readMembers_writeMembers (fuel more : Nat) (ms : List (Text × Text)) (k v : Text)
    (acc : List (Text × Json)) (hmore : ms.length < more) : ∃ p',
    readMembers (fuel + 2) more acc ⟨writePair k v
        (Layout.plain.writeMembers 1 (ofTexts ms) ++ (Text.ofString "\x7d" ++ rest)), p⟩ =
      .ok (.object (Members.ofPairs (acc.reverse ++ (k, .text v) :: ofTexts ms)), ⟨rest, p'⟩) := by
  obtain ⟨more, rfl⟩ : ∃ m, more = m + 1 := Nat.exists_eq_add_one_of_ne_zero (by omega)
  induction ms generalizing more k v acc p with
  | nil =>
    obtain ⟨p', h⟩ := readMembers_writePair p (Text.ofString "\x7d" ++ rest) fuel more acc k v
    refine ⟨p' + 1, h.trans ?_⟩
    change Except.ok (object (Members.ofPairs ((k, text v) :: acc).reverse), _) = _
    rw [List.reverse_cons]
    rfl
  | cons m ms ih =>
    obtain ⟨k', v'⟩ := m
    rw [List.length_cons] at hmore
    obtain ⟨more, rfl⟩ : ∃ m, more = m + 1 := Nat.exists_eq_add_one_of_ne_zero (by omega)
    rw [writeMembers_cons]
    obtain ⟨p₁, hmember⟩ := readMembers_writePair p _ fuel (more + 1) acc k v
    obtain ⟨p₂, hrest⟩ := ih (p₁ + 1) k' v' ((k, .text v) :: acc) more (by omega)
    refine ⟨p₂, hmember.trans ?_⟩
    change readMembers (fuel + 2) (more + 1) ((k, .text v) :: acc) ⟨writePair k' v' _, p₁ + 1⟩ = _
    rw [hrest, List.reverse_cons, List.append_assoc]
    rfl

/-- Members are no more than the code points that they are written in. -/
theorem length_le_length_writeMembers (ms : List (Text × Text)) :
    ms.length ≤ (Layout.plain.writeMembers 1 (ofTexts ms)).length := by
  induction ms with
  | nil => exact Nat.zero_le _
  | cons m ms ih =>
    have hwritten := writeMembers_cons m.1 m.2 ms []
    simp only [List.append_nil] at hwritten
    have hcomma : (Text.ofString ",").length = 1 := rfl
    rw [hwritten]
    simp only [writePair, List.length_append, List.length_cons]
    omega

/-- What is written of an object of one text or more is read back. -/
theorem read_write_texts (k v : Text) (ms : List (Text × Text)) :
    read (Layout.plain.write 0 (.object (ofTexts ((k, v) :: ms)))) =
      .ok (.object (Members.ofPairs (ofTexts ((k, v) :: ms)))) := by
  generalize hwritten : Layout.plain.write 0 (.object (ofTexts ((k, v) :: ms))) = written
  have hshape : written = Text.ofString "\x7b" ++ writePair k v
      (Layout.plain.writeMembers 1 (ofTexts ms) ++ (Text.ofString "\x7d" ++ [])) := by
    simp [← hwritten, ofTexts, writePair, Layout.plain, Layout.lineStart, Layout.write, Layout.scalar]
  -- there is more fuel than there are members
  obtain ⟨n, hn, hlength⟩ : ∃ n, 2 * written.length + 2 = n + 3 ∧ ms.length < n + 2 := by
    have hmembers := length_le_length_writeMembers ms
    have hbrace : (Text.ofString "\x7b").length = 1 := rfl
    refine ⟨2 * written.length - 1, ?_, ?_⟩ <;>
      rw [hshape] <;> simp only [writePair, List.length_append] <;> omega
  obtain ⟨p', h⟩ := readMembers_writeMembers 1 [] n (n + 2) ms k v [] hlength
  have hvalue : readValue (n + 3) (Cursor.skipBlanks ⟨written, 0⟩) =
      .ok (.object (Members.ofPairs (ofTexts ((k, v) :: ms))), ⟨[], p'⟩) := by
    rw [hshape, readValue.eq_def]
    exact h
  rw [read, hn, hvalue]
  rfl

end CodeAtlas.Json
