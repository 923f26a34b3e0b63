import CodeAtlas.Parsing.Automaton
import CodeAtlas.Parsing.Surroundings

/-!
# Reading tokens

Which token stands at a position depends on the tokens that are possible there. Among those, a token
with a higher priority wins over one with a lower one, then the longer one, then a fixed text over a
pattern, then the one with the smaller number. A word is first read as a word and then, if the place
allows it, taken as a keyword.
-/

namespace CodeAtlas.Parsing

open CodeAtlas.Grammar

/-- What the lexer knows about the tokens of a grammar. -/
structure Lexicon where
  blanks : CharSet
  word : Nat
  /-- Keywords by their code points. -/
  keywords : Std.HashMap (List Nat) Nat
  /-- All keywords as a set. -/
  keywordSet : TokenSet
  /-- Tokens with a fixed text, by their first code point: number, code points, immediate, priority. -/
  texts : Std.HashMap Nat (List (Nat × List Nat × Bool × Int))
  /-- Tokens with a pattern: number, pattern, immediate, priority. -/
  patterns : List (Nat × Pattern × Bool × Int)
  /-- What is possible where nothing in particular is expected. -/
  anywhere : TokenSet
  statementEnd : Nat
  signatureEnd : Nat
  templateText : Nat
  ternaryMark : Nat
  lineComment : Nat
  markupText : Nat
  operator : Nat
  escape : Nat
  regex : Nat
  deriving Inhabited

namespace Lexicon

/-- The lexicon of a grammar. -/
def ofProductions (g : Productions) : Lexicon :=
  let numbered := (List.range g.tokens.size).zip g.tokens.toList
  let wordPattern := match (g.tokens.getD g.word default).matcher with
    | .pattern p => p
    | _ => .never
  let isKeyword (t : Token) : Bool := match t.matcher with
    | .text cs => wordPattern.accepts cs
    | _ => false
  let words := numbered.filter (fun (_, t) ↦ isKeyword t)
  let context (name : String) : Nat := ((g.contextual.find? (fun c ↦ c.1 == name)).map Prod.snd).getD 0
  { blanks := g.blanks
    word := g.word
    keywords := words.foldl (fun m (i, t) ↦ match t.matcher with
      | .text cs => m.insert cs i
      | _ => m) ∅
    keywordSet := words.foldl (fun s (i, _) ↦ s ||| TokenSet.single i) 0
    texts := numbered.foldl (fun m (i, t) ↦ match t.matcher with
      | .text (c :: cs) =>
        if isKeyword t then m
        else m.insert c ((m.getD c []) ++ [(i, c :: cs, t.immediate, t.priority)])
      | _ => m) ∅
    patterns := numbered.filterMap (fun (i, t) ↦ match t.matcher with
      | .pattern p => some (i, p, t.immediate, t.priority)
      | _ => none)
    anywhere := numbered.foldl (fun s (i, t) ↦
      if g.confined.contains i then s else match t.matcher with
        | .contextual => s
        | _ => s ||| TokenSet.single i) 0
    statementEnd := context "_automatic_semicolon"
    signatureEnd := context "_function_signature_automatic_semicolon"
    templateText := context "_template_chars"
    ternaryMark := context "_ternary_qmark"
    lineComment := context "html_comment"
    markupText := context "jsx_text"
    operator := context "||"
    escape := context "escape_sequence"
    regex := context "regex_pattern" }

/-- A token that was found: its number, its first position and the position after it. -/
structure Found where
  token : Nat
  start : Nat
  stop : Nat
  /-- Whether the text is that of a keyword. -/
  keyword : Bool
  deriving Inhabited

/-- A token that could be taken, with what it is compared by. -/
structure Candidate where
  token : Nat
  stop : Nat
  priority : Int
  fixed : Nat

/-- The better of two tokens at one position. -/
def Candidate.better (a b : Candidate) : Candidate :=
  if a.priority != b.priority then (if a.priority < b.priority then b else a)
  else if a.stop != b.stop then (if a.stop < b.stop then b else a)
  else if a.fixed != b.fixed then (if a.fixed < b.fixed then b else a)
  else if b.token < a.token then b else a

/-- Whether code points stand at a position. -/
def standsAt (s : Source) (i : Nat) : List Nat → Bool
  | [] => true
  | c :: cs => s.at? i = c && i < s.size && standsAt s (i + 1) cs

/-- The best token of a set at a position; `immediate` says whether only immediate tokens are
wanted, or only others, or both. -/
def bestAt (x : Lexicon) (s : Source) (set : TokenSet) (wanted : Option Bool) (i : Nat) :
    Option Candidate :=
  let join (best : Option Candidate) (c : Candidate) : Option Candidate :=
    match best with
    | none => some c
    | some b => some (b.better c)
  let ofTexts := (x.texts.getD (s.at? i) []).foldl (fun best (t, cs, imm, prio) ↦
    if set.has t && (wanted.getD imm) == imm && standsAt s i cs then
      join best ⟨t, i + cs.length, prio, if imm then 3 else 2⟩
    else best) none
  x.patterns.foldl (fun best (t, p, imm, prio) ↦
    if set.has t && (wanted.getD imm) == imm then
      match p.longest? s.codes i with
      | some (n + 1) => join best ⟨t, i + (n + 1), prio, if imm then 1 else 0⟩
      | _ => best
    else best) ofTexts

/-- The tokens to look for: a keyword is looked for as a word. -/
def asWords (x : Lexicon) (set : TokenSet) : TokenSet :=
  if (set &&& x.keywordSet) == 0 then set else set ||| TokenSet.single x.word

/-- The token that stands at `i` or, after blanks, behind it. `set` holds the possible tokens,
`taken` those that a word may be taken for. -/
def find (x : Lexicon) (s : Source) (set taken : TokenSet) (i : Nat) : Option Found :=
  let set := x.asWords set
  let j := Surroundings.skipWhile s x.blanks.contains i
  let j := min j s.size
  let candidate :=
    if i < j then
      match x.bestAt s set (some true) i with
      | some c => some (i, c)
      | none => (x.bestAt s set (some false) j).map (fun c ↦ (j, c))
    else (x.bestAt s set none i).map (fun c ↦ (i, c))
  match candidate with
  | some (start, c) =>
    if c.token = x.word then
      let text := (s.codes.extract start c.stop).toList
      match x.keywords.get? text with
      | some k => some ⟨if taken.has k then k else x.word, start, c.stop, true⟩
      | none => some ⟨x.word, start, c.stop, false⟩
    else some ⟨c.token, start, c.stop, false⟩
  | none => if j = s.size && set.has 0 then some ⟨0, j, j, false⟩ else none

/-- How far some token of a set could reach from `i` on, although none is complete there. -/
def reach (x : Lexicon) (s : Source) (set : TokenSet) (i : Nat) : Nat :=
  let common (cs : List Nat) : Nat :=
    ((cs.zip (List.range cs.length)).takeWhile (fun (c, k) ↦
      s.at? (i + k) = c && i + k < s.size)).length
  let ofTexts := (x.texts.getD (s.at? i) []).foldl (fun n (t, cs, _, _) ↦
    if set.has t then max n (common cs) else n) 0
  x.patterns.foldl (fun n (t, p, _, _) ↦ if set.has t then max n (viable (s.size - i) p i 0) else n)
    ofTexts
where
  /-- How many code points from `i` on the pattern can begin with. -/
  viable : Nat → Pattern → Nat → Nat → Nat
    | 0, _, _, n => n
    | fuel + 1, p, i, n =>
      let q := p.step (s.at? i)
      if q.isNever then n else viable fuel q (i + 1) (n + 1)

/-- The part that no token covers, from `i` on: its first position and the position after it.
`stop` is where the last failed attempt ended. -/
def skipUnknown (x : Lexicon) (s : Source) : Nat → Nat → Nat
  | 0, stop => stop
  | fuel + 1, stop =>
    match x.find s x.anywhere x.anywhere stop with
    | some _ => stop
    | none =>
      let j := min (Surroundings.skipWhile s x.blanks.contains stop) s.size
      let k := j + x.reach s x.anywhere j
      skipUnknown x s fuel (if k = stop then stop + 1 else k)

/-- What the contextual tokens of a set of possible tokens are. -/
def possible (x : Lexicon) (set : TokenSet) : Possible where
  statementEnd := set.has x.statementEnd
  signatureEnd := set.has x.signatureEnd
  templateText := set.has x.templateText
  ternaryMark := set.has x.ternaryMark
  lineComment := true
  markupText := set.has x.markupText
  operator := set.has x.operator
  escape := set.has x.escape
  regex := set.has x.regex

/-- The number of a contextual token. -/
def numberOf (x : Lexicon) : ContextToken → Nat
  | .statementEnd => x.statementEnd
  | .templateText => x.templateText
  | .ternaryMark => x.ternaryMark
  | .lineComment => x.lineComment
  | .markupText => x.markupText

/-- What is read next: a token, or a part that no token covers. -/
inductive Reading where
  | token (f : Found)
  | unknown (start stop : Nat)
  deriving Inhabited

/-- Reads on from position `i`. `expected` holds the tokens that the state does something with,
extras included. In the error state (`lost`) any token is taken. An empty contextual token counts
only if `advanced` says that something has been read since the last error. -/
def read (x : Lexicon) (s : Source) (lost : Bool) (expected : TokenSet) (advanced : Bool) (i : Nat) :
    Reading :=
  let contextual :=
    if lost then none
    else match Surroundings.scan s (x.possible expected) i with
      | some (t, a, b) =>
        if b ≤ i && (!advanced || t == .lineComment) then none
        else some (Found.mk (x.numberOf t) a b false)
      | none => none
  match contextual with
  | some f => .token f
  | none =>
    match (if lost then none else x.find s expected expected i) with
    | some f => .token f
    | none =>
      let taken := if lost then x.anywhere else expected
      match x.find s x.anywhere taken i with
      | some f => .token f
      | none =>
        let j := min (Surroundings.skipWhile s x.blanks.contains i) s.size
        let k := j + x.reach s x.anywhere j
        .unknown j (skipUnknown x s (s.size - j + 1) (if k = j then j + 1 else k))

end Lexicon

end CodeAtlas.Parsing
