import CodeAtlas.Proofs.Diagnosis.Faults
import CodeAtlas.Proofs.Text.LetterCase

/-!
# What a learner is told to check

A hint is chosen by words that are searched for in a whole message, which may quote what stands in the
source. Still it is the words with which a message opens that decide: what is quoted stands behind them, and
the words that would be found before them hold a space, which no identifier has. So the hint fits however
letters beyond ASCII are lower-cased (`MessageClass.Fits`). Main statement: `fits_of_mem_ofTree`.
-/

namespace CodeAtlas

open CodePoint (space)
open Syntax

namespace Diagnosis

/-- The classes of messages. -/
inductive MessageClass where
  | token
  | identifier
  | unterminated
  deriving DecidableEq

namespace MessageClass

/-- The words with which a message of a class opens. -/
def opening : MessageClass → String
  | token => "Unexpected token"
  | identifier => "Unexpected identifier"
  | unterminated => "Unterminated"

/-- The rule of a class: the words that are searched for, and what to check. -/
def rule : MessageClass → String × String
  | token => ("unexpected token", "Check for missing or extra brackets, parentheses, or semicolons")
  | identifier =>
    ("unexpected identifier", "You might have a typo or missing operator between expressions")
  | unterminated => ("unterminated", "Check for unclosed strings, comments, or brackets")

/-- There are no other rules. -/
theorem hints_eq_map_rule : hints = [token, identifier, unterminated].map rule := rfl

theorem rule_mem_hints (k : MessageClass) : k.rule ∈ hints := by
  rw [hints_eq_map_rule]
  apply List.mem_map_of_mem
  cases k <;> decide

/-- The words that are searched for are those of the opening. -/
theorem lower_opening (k : MessageClass) :
    (Text.ofString k.opening).lower = Text.ofString k.rule.1 := by
  cases k <;> decide +kernel

end MessageClass

/-- A message is of a class, and the hint of the class goes with it in any lower case. -/
structure MessageClass.Fits (k : MessageClass) (message : Text) : Prop where
  opening : Text.ofString k.opening <+: message
  advice : ∀ lowered, Text.Lowered message lowered → advice lowered = Text.ofString k.rule.2

namespace MessageClass

/-- No class opens like another one, so a message is of no more than one class. -/
theorem Fits.eq_of_prefix {k l : MessageClass} {message : Text} (h : k.Fits message)
    (hl : Text.ofString l.opening <+: message) : l = k := by
  have hopenings : ∀ k l : MessageClass,
      Text.ofString k.opening <+: Text.ofString l.opening → k = l := by
    intro k l
    cases k <;> cases l <;> decide +kernel
  rcases List.prefix_or_prefix_of_prefix hl h.opening with hpre | hpre
  · exact hopenings l k hpre
  · exact (hopenings k l hpre).symm

/-- The hint for unexpected tokens comes first in the search, whatever stands behind the opening. -/
theorem fits_token (rest : Text) : token.Fits (Text.ofString "Unexpected token" ++ rest) := by
  refine ⟨List.prefix_append _ _, fun lowered h ↦ ?_⟩
  obtain ⟨v, rfl, -⟩ := h.exists_eq_append (by decide)
  have hfound : Text.contains (Text.ofString "unexpected token")
      ((Text.ofString "Unexpected token").lower ++ v) = true :=
    Text.contains_of_prefix (List.prefix_append _ _)
  simp [Diagnosis.advice, hints, hfound, rule]

/-- What is quoted of an identifier does not hold the words of the rule that comes first. -/
theorem fits_identifier {quoted : Text} (h : space ∉ quoted) :
    identifier.Fits (Text.ofString "Unexpected identifier '" ++ quoted ++ Text.ofString "'") := by
  refine ⟨?_, fun lowered hlowered ↦ ?_⟩
  · exact ⟨Text.ofString " '" ++ quoted ++ Text.ofString "'", rfl⟩
  · rw [List.append_assoc] at hlowered
    obtain ⟨v, rfl, hv⟩ := hlowered.exists_eq_append (by decide)
    have hspace : space ∉ quoted ++ Text.ofString "'" := by
      rw [List.mem_append, not_or]
      exact ⟨h, by decide⟩
    have hrest : Text.contains (Text.ofString "unexpected token") v = false :=
      Text.contains_eq_false_of_notMem (by decide) (hv.space_notMem hspace)
    -- The words do not begin within the opening, so they would stand in what is quoted.
    have hfirst : Text.contains (Text.ofString "unexpected token")
        ((Text.ofString "Unexpected identifier '").lower ++ v) = false := hrest
    have hfound : Text.contains (Text.ofString "unexpected identifier")
        ((Text.ofString "Unexpected identifier '").lower ++ v) = true :=
      Text.contains_of_prefix ⟨Text.ofString " '" ++ v, rfl⟩
    simp [Diagnosis.advice, hints, hfirst, hfound, rule]

/-- What is not terminated is called by a few words. -/
theorem fits_unterminated {words : Text} (h : words ∈ [Text.ofString "Unterminated comment",
    Text.ofString "Unterminated string constant", Text.ofString "Unterminated template"]) :
    unterminated.Fits words := by
  have hwords : ∀ t ∈ [Text.ofString "Unterminated comment",
      Text.ofString "Unterminated string constant", Text.ofString "Unterminated template"],
      Text.ofString "Unterminated" <+: t ∧ (∀ c ∈ t, c.val < 0x80) ∧
        Diagnosis.advice t.lower = Text.ofString unterminated.rule.2 := by
    decide +kernel
  obtain ⟨hopening, hascii, hadvice⟩ := hwords words h
  refine ⟨hopening, fun lowered hlowered ↦ ?_⟩
  obtain ⟨v, rfl, hv⟩ := (words.append_nil ▸ hlowered).exists_eq_append hascii
  cases hv
  rw [List.append_nil, hadvice]

end MessageClass

/-! ### First tokens -/

mutual

/-- The first token of a node is a leaf of its tree. -/
theorem firstToken_mem : ∀ n, firstToken n ∈ n.nodes ∧ (firstToken n).children = []
  | .node h cs => by
    rw [firstToken]
    exact firstTokenOf_mem h cs

/-- The first token of the first of several nodes is a leaf of its tree. -/
theorem firstTokenOf_mem (h : ConcreteHead) : ∀ cs, firstTokenOf (.node h cs) cs ∈
    (ConcreteNode.node h cs).nodes ∧ (firstTokenOf (.node h cs) cs).children = []
  | [] => ⟨ConcreteNode.self_mem_nodes _, rfl⟩
  | c :: cs => by
    obtain ⟨hmem, hleaf⟩ := firstToken_mem c
    refine ⟨ConcreteNode.mem_nodes_of_mem_children (List.mem_cons_self ..) hmem, hleaf⟩

end

/-- No leaf of a tree that is an identifier holds a space. -/
def IdentifiersUnspaced (octets : List UInt8) (root : ConcreteNode) : Prop :=
  ∀ n ∈ root.nodes, n.children = [] → identifierKinds.any n.isA = true → space ∉ n.text octets

instance (octets : List UInt8) (root : ConcreteNode) :
    Decidable (IdentifiersUnspaced octets root) :=
  inferInstanceAs (Decidable (∀ n ∈ root.nodes, n.children = [] → _ → _))

/-- What is said of a part that could not be read fits a class. -/
theorem exists_fits_describe {octets : List UInt8} {root n : ConcreteNode}
    (h : IdentifiersUnspaced octets root) (hn : n ∈ root.nodes) :
    ∃ k : MessageClass, k.Fits (describe octets n).message := by
  unfold describe
  dsimp only
  split_ifs with hcomment hstring htemplate hidentifier
  · exact ⟨.unterminated, MessageClass.fits_unterminated (by simp [Cause.message])⟩
  · exact ⟨.unterminated, MessageClass.fits_unterminated (by simp [Cause.message])⟩
  · exact ⟨.unterminated, MessageClass.fits_unterminated (by simp [Cause.message])⟩
  · obtain ⟨hmem, hleaf⟩ := firstToken_mem n
    have hspace : space ∉ (firstToken n).text octets :=
      h _ (ConcreteNode.nodes_subset_nodes hn hmem) hleaf hidentifier
    exact ⟨.identifier, MessageClass.fits_identifier fun hquoted ↦
      hspace (List.mem_of_mem_take hquoted)⟩
  · exact ⟨.token, MessageClass.fits_token (Text.ofString " '" ++
      ((firstToken n).text octets).take quotedLength ++ Text.ofString "'")⟩

/-- What is said of a fault fits a class. -/
theorem exists_fits_causeOf {source : Text} {root n : ConcreteNode}
    (h : IdentifiersUnspaced (Utf8.encode source) root) (hn : n ∈ root.nodes) :
    ∃ k : MessageClass, k.Fits (causeOf source n).message := by
  unfold causeOf
  split
  · exact ⟨.token, MessageClass.fits_token (Text.ofString ", expected '" ++ n.head.kind ++
      Text.ofString "'")⟩
  · exact exists_fits_describe h hn

/-- The hint always fits the message. If no identifier of a tree holds a space, every diagnostic is of one
of three classes, which the words that it opens with tell, and the rule that is searched for these words
gives its hint, whatever it quotes from the source. It is never told only to review the line. The same rule
is found however letters beyond ASCII are lower-cased. -/
theorem fits_of_mem_ofTree {source : Text} {root : ConcreteNode}
    (h : IdentifiersUnspaced (Utf8.encode source) root) :
    ∀ d ∈ ofTree source root, ∃ k : MessageClass,
      (∀ l : MessageClass, d.message.startsWith (Text.ofString l.opening) = true ↔ l = k) ∧
      k.rule ∈ hints ∧ (Text.ofString k.opening).lower = Text.ofString k.rule.1 ∧
      d.suggestion = Text.ofString k.rule.2 ∧ d.suggestion ≠ Text.ofString fallbackHint ∧
      ∀ lowered, Text.Lowered d.message lowered → advice lowered = Text.ofString k.rule.2 := by
  intro d hd
  obtain ⟨n, cause, rfl, k, hfits⟩ : ∃ n cause, d = atNode source n cause ∧
      ∃ k : MessageClass, k.Fits cause.message := by
    by_cases hfaults : faults limit [root] = []
    · rw [ofTree_of_faults_eq_nil source hfaults, List.mem_singleton] at hd
      exact ⟨root, .unexplained, hd, .token, MessageClass.fits_token []⟩
    · rw [ofTree_of_faults_ne_nil source hfaults] at hd
      obtain ⟨n, hn, rfl⟩ := List.mem_map.1 hd
      exact ⟨n, causeOf source n, rfl,
        exists_fits_causeOf h ((faults_root_sublist limit root).subset hn)⟩
  have hsuggestion : (atNode source n cause).suggestion = Text.ofString k.rule.2 :=
    hfits.advice _ (Text.lowered_lower cause.message)
  refine ⟨k, fun l ↦ ⟨fun hl ↦ ?_, ?_⟩, k.rule_mem_hints, k.lower_opening, hsuggestion, ?_,
    hfits.advice⟩
  · exact hfits.eq_of_prefix (List.isPrefixOf_iff_prefix.1 hl)
  · rintro rfl
    exact List.isPrefixOf_iff_prefix.2 hfits.opening
  · rw [hsuggestion]
    cases k <;> decide +kernel

/-- An identifier with a Kelvin sign that is lower-cased to `token`, and a part that could not be read and
speaks of an identifier itself. -/
theorem fits_of_mem_ofTree_misleading :
    let source := Text.ofString "to\u212Aen unexpected identifier"
    let unread (start stop : Nat) (cs : List ConcreteNode) : ConcreteNode :=
      ConcreteNode.branch "ERROR" start stop none cs
    let root := ConcreteNode.branch "program" 0 29 none
      [unread 0 7 [ConcreteNode.branch "identifier" 0 7 none []], unread 8 29 []]
    IdentifiersUnspaced (Utf8.encode source) root ∧
      (ofTree source root).map (fun d ↦ (d.message, d.suggestion)) =
        [(Text.ofString "Unexpected identifier 'to\u212Aen'",
            Text.ofString MessageClass.identifier.rule.2),
          (Text.ofString "Unexpected token 'unexpected identifie'",
            Text.ofString MessageClass.token.rule.2)] ∧
      ∀ d ∈ ofTree source root, d.suggestion ≠ Text.ofString fallbackHint := by
  intro source unread root
  have hunspaced : IdentifiersUnspaced (Utf8.encode source) root := by decide +kernel
  refine ⟨hunspaced, ?_, fun d hd ↦ ?_⟩
  · rw [ofTree, faults_root]
    decide +kernel
  · obtain ⟨k, -, -, -, -, hfallback, -⟩ := fits_of_mem_ofTree hunspaced d hd
    exact hfallback

end Diagnosis

end CodeAtlas
