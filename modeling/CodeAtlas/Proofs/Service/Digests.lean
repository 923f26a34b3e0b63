import CodeAtlas.Proofs.Cache.Recency
import CodeAtlas.Proofs.Service.Failing
import CodeAtlas.Proofs.Syntax.Nodes
import CodeAtlas.Proofs.Text.ReadBack

/-!
# What digests tell apart

A digest is the hash of the octets of its text, written in base sixteen. Different texts have different
octets and different octets are written differently, so two texts that share a digest are the same, or
their octets are a collision of the hash function (`eq_or_collision`). The octets are those that the parser
reads and that the limit on the size of a source counts. An analysis leaves no key in a cache but the
digest of its source, so a text finds the entry of another one only on a collision. Main statement:
`octets_tell_texts_apart`.
-/

namespace CodeAtlas

namespace Digest

/-- Different octets have the same hash. -/
structure Collision (xs ys : List UInt8) : Prop where
  ne : xs ≠ ys
  sha256_eq : sha256 xs = sha256 ys

/-- Different digits are written differently. -/
theorem hexDigit_inj : ∀ m < 16, ∀ n < 16, Text.hexDigit m = Text.hexDigit n → m = n := by
  decide

/-- Different octets are written with different digits. -/
theorem hexDigits_toNat_inj {a b : UInt8} (h : Text.hexDigits 2 a.toNat = Text.hexDigits 2 b.toNat) :
    a = b := by
  have hdigits (n : Nat) : Text.hexDigits 2 n = [Text.hexDigit (n / 16 % 16), Text.hexDigit (n % 16)] :=
    rfl
  rw [hdigits, hdigits, List.cons.injEq, List.cons.injEq] at h
  have hhigh := hexDigit_inj _ (Nat.mod_lt _ (by decide)) _ (Nat.mod_lt _ (by decide)) h.1
  have hlow := hexDigit_inj _ (Nat.mod_lt _ (by decide)) _ (Nat.mod_lt _ (by decide)) h.2.1
  have ha := a.toNat_lt
  have hb := b.toNat_lt
  exact UInt8.toNat_inj.1 (by omega)

theorem written_cons (b : UInt8) (bs : List UInt8) :
    written (b :: bs) = Text.hexDigits 2 b.toNat ++ written bs := List.flatMap_cons

/-- Different sequences of octets are written differently. -/
theorem written_injective : Function.Injective written := by
  intro xs ys h
  induction xs generalizing ys with
  | nil =>
    cases ys with
    | nil => rfl
    | cons y ys => cases h
  | cons x xs ih =>
    cases ys with
    | nil => cases h
    | cons y ys =>
      rw [written_cons, written_cons] at h
      obtain ⟨hfirst, hrest⟩ := List.append_inj h (by simp only [Text.length_hexDigits])
      rw [hexDigits_toNat_inj hfirst, ih hrest]

/-- Texts that share a digest are the same, or their octets are a collision. -/
theorem eq_or_collision {t u : Text} (h : ofText t = ofText u) :
    t = u ∨ Collision (Utf8.encode t) (Utf8.encode u) := by
  have hsha : sha256 (Utf8.encode t) = sha256 (Utf8.encode u) := written_injective h
  by_cases htu : t = u
  · exact .inl htu
  · exact .inr ⟨fun he ↦ htu (Utf8.leftInverse_readBack.injective he), hsha⟩

end Digest

/-- An analysis leaves no key in the cache but those that were there and the digest of its source. -/
theorem eq_digest_or_contains_of_analyze {s : Stages} {t : Text} {c left : Store}
    {result : Except Problem Analysis} (h : analyze s t (some c) = (result, some left)) {k : Text}
    (hk : left.contains k = true) : k = Digest.ofText t ∨ c.contains k = true := by
  have hall : left.All fun k _ ↦ k = Digest.ofText t ∨ c.contains k = true := by
    have hc : c.All fun k _ ↦ k = Digest.ofText t ∨ c.contains k = true :=
      fun e he ↦ .inr (List.any_eq_true.2 ⟨e, he, by simp⟩)
    obtain ⟨result', left', heq, hends⟩ := exists_analyze_eq s t c
    cases h.symm.trans heq
    cases hends with
    | found => exact hc.lookup _
    | explained | defect => exact hc
    | stored => exact Cache.All.insert (c := { c with misses := c.misses + 1 }) hc (.inl rfl)
  obtain ⟨e, he, hke⟩ := List.any_eq_true.1 hk
  have hkey : e.1 = k := by simpa using hke
  exact hkey ▸ hall e he

/-- A text that a parser accepts is scalar. -/
theorem isScalar_of_ofBuilder {build : Text → Syntax.ConcreteNode} {t : Text}
    {root : Syntax.ConcreteNode} (h : Parser.ofBuilder build t = .ok root) : t.isScalar = true := by
  unfold Parser.ofBuilder at h
  split at h
  next octets hoctets => exact Utf8.isScalar_of_encodeStrict hoctets
  next => cases h

/-- The octets that are hashed tell texts apart. All texts are read back from their octets, surrogates on
their own or next to each other included; a text that the parser accepts is encoded strictly as the same
octets, which are those of the standard encoding; and their number is the size that is held against the
limit. So two texts have one digest only if they are the same or their octets are a collision of the hash
function, and only then does an analysis of the one leave an entry for the other. -/
theorem octets_tell_texts_apart :
    Function.LeftInverse Utf8.readBack Utf8.encode ∧
      (∀ build t root, Parser.ofBuilder build t = .ok root →
        Utf8.encodeStrict t = .ok (Utf8.encode t) ∧
          t.toString.toUTF8.data.toList = Utf8.encode t) ∧
      (∀ r : Request, r.source ≠ [] →
        r.rejection? = if r.maxBytes < (Utf8.encode r.source).length then
          some (.oversized (Utf8.encode r.source).length r.maxBytes) else none) ∧
      (∀ t u, Digest.ofText t = Digest.ofText u →
        t = u ∨ Digest.Collision (Utf8.encode t) (Utf8.encode u)) ∧
      ∀ s t u (c left : Store) result, analyze s t (some c) = (result, some left) →
        c.contains (Digest.ofText u) = false → left.contains (Digest.ofText u) = true →
          t = u ∨ Digest.Collision (Utf8.encode t) (Utf8.encode u) := by
  refine ⟨Utf8.leftInverse_readBack, fun build t root h ↦ ?_, fun r hr ↦ ?_,
    fun t u h ↦ Digest.eq_or_collision h, fun s t u c left result h hc hleft ↦ ?_⟩
  · have ht := isScalar_of_ofBuilder h
    exact ⟨Utf8.encodeStrict_of_isScalar ht, Utf8.toUTF8_toString ht⟩
  · rw [Request.rejection?, if_neg (by simpa using hr)]
  · rcases eq_digest_or_contains_of_analyze h hleft with hdigest | hold
    · exact Digest.eq_or_collision hdigest.symm
    · rw [hc] at hold
      cases hold

/-- Two surrogates next to each other and the code point that they would stand for as a pair; and a source of
two octets, which the parser accepts, a limit of one refuses, and an empty cache stores. -/
theorem octets_tell_texts_apart_surrogates :
    let pair : Text := [⟨0xD83C, by decide⟩, ⟨0xDF89, by decide⟩]
    let x := Text.ofString "é"
    let root : Syntax.ConcreteNode := .branch "program" 0 2 none []
    let build : Text → Syntax.ConcreteNode := fun _ ↦ root
    let c : Store := .empty 1 Nat.one_pos
    Utf8.encode pair ≠ Utf8.encode (Text.ofString "🎉") ∧ Utf8.readBack (Utf8.encode pair) = pair ∧
      (Parser.ofBuilder build x = .ok root ∧ Utf8.encodeStrict x = .ok (Utf8.encode x)) ∧
      (x ≠ [] ∧ (⟨x, Request.defaultLanguage, 50, 1⟩ : Request).rejection? = some (.oversized 2 1)) ∧
      ∃ result left, analyze ⟨.ofBuilder build, none, none⟩ x (some c) = (result, some left) ∧
        c.contains (Digest.ofText x) = false ∧ left.contains (Digest.ofText x) = true ∧
        (x = x ∨ Digest.Collision (Utf8.encode x) (Utf8.encode x)) := by
  intro pair x root build c
  obtain ⟨hback, hparser, hsize, -, hentry⟩ := octets_tell_texts_apart
  have hpair : pair ≠ Text.ofString "🎉" := by decide
  have hroot : Parser.ofBuilder build x = .ok root := rfl
  refine ⟨fun h ↦ hpair (hback.injective h), hback pair, ⟨hroot, (hparser build x root hroot).1⟩,
    ⟨by decide, hsize ⟨x, Request.defaultLanguage, 50, 1⟩ (by decide)⟩, ?_⟩
  have hstored := @analyze_of_lookup_none ⟨.ofBuilder build, none, none⟩ x c rfl
  have hleft : Cache.contains (keep (c.lookup (Digest.ofText x)).2
      (analyzeFresh ⟨.ofBuilder build, none, none⟩ x)) (Digest.ofText x) = true := by
    rw [← Cache.isSome_lookup, Cache.fst_lookup]
    exact congrArg Option.isSome (Cache.find?_insert_self _ (Digest.ofText x) _)
  exact ⟨_, _, hstored, rfl, hleft, hentry _ x x c _ _ hstored rfl hleft⟩

end CodeAtlas
