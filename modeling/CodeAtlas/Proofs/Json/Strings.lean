import CodeAtlas.Json.Writer
import CodeAtlas.Proofs.Text.Scalar

/-!
# The texts in a JSON value

`Json.strings` lists the texts of a value at any depth, the names of members included. A value is scalar
if all of them are; for a record only its values matter, as its names are fixed. Main statement:
`Layout.isScalar_write`, a scalar value is written as a scalar text.
-/

namespace CodeAtlas.Json

mutual

/-- The texts in a value. -/
def strings : Json → List Text
  | .text t => [t]
  | .list xs => stringsOfAll xs
  | .object ms => stringsOfMembers ms
  | .null | .bool _ | .int _ | .real _ => []

/-- The texts in several values. -/
def stringsOfAll : List Json → List Text
  | [] => []
  | x :: xs => strings x ++ stringsOfAll xs

/-- The names of members and the texts in their values. -/
def stringsOfMembers : List (Text × Json) → List Text
  | [] => []
  | (k, v) :: ms => k :: strings v ++ stringsOfMembers ms

end

/-- All texts in a value are scalar. -/
def IsScalar (v : Json) : Prop := ∀ t ∈ v.strings, t.isScalar = true

theorem mem_stringsOfAll {xs : List Json} {t : Text} :
    t ∈ stringsOfAll xs ↔ ∃ x ∈ xs, t ∈ x.strings := by
  induction xs with
  | nil => simp [stringsOfAll]
  | cons x xs ih => simp [stringsOfAll, ih]

theorem mem_stringsOfMembers {ms : List (Text × Json)} {t : Text} :
    t ∈ stringsOfMembers ms ↔ ∃ m ∈ ms, t = m.1 ∨ t ∈ m.2.strings := by
  induction ms with
  | nil => simp [stringsOfMembers]
  | cons m ms ih => simp [stringsOfMembers, ih, or_assoc]

@[simp]
theorem isScalar_null : null.IsScalar := by simp [IsScalar, strings]

@[simp]
theorem isScalar_bool (b : Bool) : (bool b).IsScalar := by simp [IsScalar, strings]

@[simp]
theorem isScalar_int (n : Int) : (int n).IsScalar := by simp [IsScalar, strings]

@[simp]
theorem isScalar_real (x : Binary64) : (real x).IsScalar := by simp [IsScalar, strings]

@[simp]
theorem isScalar_text {t : Text} : (text t).IsScalar ↔ t.isScalar = true := by
  simp [IsScalar, strings]

@[simp]
theorem isScalar_str (s : String) : (str s).IsScalar := by simp [str]

@[simp]
theorem isScalar_list {xs : List Json} : (list xs).IsScalar ↔ ∀ x ∈ xs, x.IsScalar := by
  simp only [IsScalar, strings, mem_stringsOfAll]
  exact ⟨fun h x hx t ht ↦ h t ⟨x, hx, ht⟩, fun h t ⟨x, hx, ht⟩ ↦ h x hx t ht⟩

theorem isScalar_object {ms : List (Text × Json)} :
    (object ms).IsScalar ↔ ∀ m ∈ ms, m.1.isScalar = true ∧ m.2.IsScalar := by
  simp only [IsScalar, strings, mem_stringsOfMembers]
  constructor
  · exact fun h m hm ↦ ⟨h _ ⟨m, hm, .inl rfl⟩, fun t ht ↦ h t ⟨m, hm, .inr ht⟩⟩
  · rintro h t ⟨m, hm, rfl | ht⟩
    · exact (h m hm).1
    · exact (h m hm).2 t ht

@[simp]
theorem isScalar_record {ms : List (String × Json)} :
    (record ms).IsScalar ↔ ∀ m ∈ ms, m.2.IsScalar := by
  rw [record, isScalar_object, List.forall_mem_map]
  simp

@[simp]
theorem isScalar_texts {ts : List Text} : (texts ts).IsScalar ↔ ∀ t ∈ ts, t.isScalar = true := by
  simp [texts]

@[simp]
theorem isScalar_ofOption {v? : Option Json} : (ofOption v?).IsScalar ↔ ∀ v ∈ v?, v.IsScalar := by
  cases v? <;> simp [ofOption]

/-! ### Written values -/

theorem isScalar_writeCodePoint {c : CodePoint} (ascii : Bool) (h : c.isSurrogate = false) :
    (writeCodePoint ascii c).isScalar = true := by
  unfold writeCodePoint
  dsimp only
  split_ifs <;> simp [codeEscape, h]

theorem isScalar_writeText {t : Text} (ascii : Bool) (h : t.isScalar = true) :
    (writeText ascii t).isScalar = true := by
  have hmark : Text.quotationMark.isSurrogate = false := by decide
  have hpoints := Text.isScalar_flatMap fun c hc ↦
    isScalar_writeCodePoint ascii (Text.isScalar_iff.1 h c hc)
  simp [writeText, hmark, hpoints]

namespace Layout

@[simp]
theorem isScalar_lineStart (l : Layout) (depth : Nat) : (l.lineStart depth).isScalar = true := by
  have hspaces (n : Nat) : Text.isScalar (List.replicate n (CodePoint.ofNat 0x20)) = true :=
    Text.isScalar_iff.2 fun c hc ↦ by rw [List.eq_of_mem_replicate hc]; decide
  unfold lineStart
  split
  · rfl
  · simp [hspaces]

mutual

/-- A scalar value is written as a scalar text. -/
theorem isScalar_write (l : Layout) (depth : Nat) :
    ∀ v : Json, v.IsScalar → (l.write depth v).isScalar = true
  | .list [], _ => by simp [write]
  | .list (x :: xs), h => by
    rw [isScalar_list, List.forall_mem_cons] at h
    have hx := isScalar_write l (depth + 1) x h.1
    have hxs := isScalar_writeElements l (depth + 1) xs h.2
    simp [write, hx, hxs]
  | .object [], _ => by simp [write]
  | .object ((k, v) :: ms), h => by
    rw [isScalar_object, List.forall_mem_cons] at h
    have hk := isScalar_writeText l.ascii h.1.1
    have hv := isScalar_write l (depth + 1) v h.1.2
    have hms := isScalar_writeMembers l (depth + 1) ms h.2
    simp [write, hk, hv, hms]
  | .null, _ => by simp [write, scalar]
  | .bool b, _ => by cases b <;> simp [write, scalar]
  | .int n, _ => by simp [write, scalar]
  | .real x, _ => by cases x <;> simp [write, scalar]
  | .text t, h => isScalar_writeText l.ascii (isScalar_text.1 h)

theorem isScalar_writeElements (l : Layout) (depth : Nat) :
    ∀ xs : List Json, (∀ x ∈ xs, x.IsScalar) → (l.writeElements depth xs).isScalar = true
  | [], _ => rfl
  | x :: xs, h => by
    rw [List.forall_mem_cons] at h
    have hx := isScalar_write l depth x h.1
    have hxs := isScalar_writeElements l depth xs h.2
    simp [writeElements, hx, hxs]

theorem isScalar_writeMembers (l : Layout) (depth : Nat) :
    ∀ ms : List (Text × Json), (∀ m ∈ ms, m.1.isScalar = true ∧ m.2.IsScalar) →
      (l.writeMembers depth ms).isScalar = true
  | [], _ => rfl
  | (k, v) :: ms, h => by
    rw [List.forall_mem_cons] at h
    have hk := isScalar_writeText l.ascii h.1.1
    have hv := isScalar_write l depth v h.1.2
    have hms := isScalar_writeMembers l depth ms h.2
    simp [writeMembers, hk, hv, hms]

end

end Layout

end CodeAtlas.Json
