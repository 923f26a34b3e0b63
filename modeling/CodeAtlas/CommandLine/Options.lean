import CodeAtlas.Text.Digits
import CodeAtlas.Text.LetterCase
import CodeAtlas.Text.Quoted

/-!
# Options on a command line

A command line is read against a table of options and a place for operands. A word that begins with a
dash is an option if the table knows it, or knows exactly one long name that it begins, or knows its
first letter as a short option; what an option does not know stays a stray word. After two dashes every
word is an operand. `scan` turns the words into events in the order in which they take effect, and stops
at the first misuse.
-/

namespace CodeAtlas.CommandLine

/-- A dash. -/
def dash : CodePoint := CodePoint.ofNat 0x2D

/-- An equals sign. -/
def equals : CodePoint := CodePoint.ofNat 0x3D

/-- An option. -/
structure Switch (κ : Type) where
  /-- All names, with their dashes. -/
  names : List Text
  key : κ
  takesValue : Bool

/-- How a command line is used wrongly. -/
inductive Misuse where
  /-- A word that begins several names. -/
  | ambiguous (word : Text) (names : List Text)
  /-- An option without the value that it takes. -/
  | noValue (names : List Text)
  /-- An option with a value that it does not take. -/
  | unwantedValue (names : List Text) (value : Text)
  /-- A value that is none of several words. -/
  | notOneOf (names : List Text) (value : Text) (choices : List String)
  /-- A value that is no integer. -/
  | notInteger (names : List Text) (value : Text)
  /-- An operand that is missing. -/
  | missing (operand : String)
  /-- Words that nothing knows. -/
  | unrecognized (words : List Text)
  deriving DecidableEq

namespace Misuse

/-- What a misuse is about. -/
def about (names : List Text) : Text :=
  Text.ofString "argument " ++ (Text.ofString "/").intercalate names ++ Text.ofString ": "

/-- A misuse in words. -/
def message : Misuse → Text
  | ambiguous word names =>
    Text.ofString "ambiguous option: " ++ word ++ Text.ofString " could match " ++
      (Text.ofString ", ").intercalate names
  | noValue names => about names ++ Text.ofString "expected one argument"
  | unwantedValue names value =>
    about names ++ Text.ofString "ignored explicit argument " ++ value.quoted
  | notOneOf names value choices =>
    about names ++ Text.ofString "invalid choice: " ++ value.quoted ++
      Text.ofString " (choose from " ++
      (Text.ofString ", ").intercalate (choices.map fun c ↦ (Text.ofString c).quoted) ++
      Text.ofString ")"
  | notInteger names value =>
    about names ++ Text.ofString "invalid int value: " ++ value.quoted
  | missing operand =>
    Text.ofString "the following arguments are required: " ++ Text.ofString operand
  | unrecognized words =>
    Text.ofString "unrecognized arguments: " ++ (Text.ofString " ").intercalate words

end Misuse

/-- The value that stands in the same word as its option. -/
inductive Attached where
  | nothing
  /-- A value behind an equals sign. -/
  | equal (value : Text)
  /-- A value right behind the letter of the option. -/
  | direct (value : Text)

/-- An option as a word of the command line has it. -/
structure Use (κ : Type) where
  switch : Switch κ
  name : Text
  attached : Attached

/-- The options of a command line. -/
abbrev Table (κ : Type) := List (Switch κ)

/-- A word that is a number below zero. -/
def isNegative (word : Text) : Bool :=
  let line := if word.getLast?.any (·.val == 0x0A) then word.dropLast else word
  match line with
  | [] => false
  | c :: cs =>
    let isDecimal (d : CodePoint) : Bool := d.decimal?.isSome
    let fraction := cs.dropWhile isDecimal
    c = dash && match fraction with
      | [] => !cs.isEmpty
      | p :: ps => p.val == 0x2E && !ps.isEmpty && ps.all isDecimal

/-- What a word is. -/
inductive Word (κ : Type) where
  | operand
  /-- Two dashes, after which there are only operands. -/
  | mark
  | option (use : Use κ)
  /-- A word with a dash that the table does not know. -/
  | unknown

namespace Word

variable {κ : Type}

/-- Whether a word is the mark. -/
def isMark : Word κ → Bool
  | mark => true
  | _ => false

end Word

namespace Table

variable {κ : Type}

/-- Every name with its option, in order. -/
def named (t : Table κ) : List (Text × Switch κ) := t.flatMap fun s ↦ s.names.map fun n ↦ (n, s)

/-- The option with a name. -/
def find? (t : Table κ) (name : Text) : Option (Switch κ) :=
  (t.named.find? (·.1 = name)).map (·.2)

/-- The part of a word before its first equals sign, and the part after it if there is one. -/
def splitEquals (word : Text) : Text × Option Text :=
  (word.takeWhile (· ≠ equals), match word.dropWhile (· ≠ equals) with
    | [] => none
    | _ :: value => some value)

/-- The options that a word could stand for which is the name of none: a long name that it begins, or
a short option with its value. -/
def candidates (t : Table κ) (word : Text) : List (Use κ) :=
  match word with
  | a :: b :: rest =>
    if b = dash then
      let (stem, value?) := splitEquals word
      let attached := match value? with
        | some v => .equal v
        | none => .nothing
      t.named.filterMap fun n ↦ if stem.isPrefixOf n.1 then some ⟨n.2, n.1, attached⟩ else none
    else
      t.named.filterMap fun n ↦
        if n.1 = [a, b] then some ⟨n.2, n.1, .direct rest⟩
        else if word.isPrefixOf n.1 then some ⟨n.2, n.1, .nothing⟩
        else none
  | _ => []

/-- The option that a word has by its full name, with a value behind an equals sign, perhaps. -/
def fullName? (t : Table κ) (word : Text) : Option (Use κ) :=
  match t.find? word with
  | some s => some ⟨s, word, .nothing⟩
  | none =>
    match splitEquals word with
    | (stem, some value) => (t.find? stem).map fun s ↦ ⟨s, stem, .equal value⟩
    | _ => none

/-- What a word is that does not follow the mark. -/
def classify (t : Table κ) (word : Text) : Except Misuse (Word κ) :=
  if word = [dash, dash] then .ok .mark
  else if word.head? ≠ some dash || word = [dash] then .ok .operand
  else match t.fullName? word with
    | some u => .ok (.option u)
    | none => match t.candidates word with
      | [u] => .ok (.option u)
      | [] =>
        if isNegative word || CodePoint.ofNat 0x20 ∈ word then .ok .operand
        else .ok .unknown
      | us => .error (.ambiguous word (us.map (·.name)))

/-- What the words of a command line are. -/
def classifyAll (t : Table κ) : List Text → Except Misuse (List (Text × Word κ))
  | [] => .ok []
  | w :: ws =>
    match t.classify w with
    | .error m => .error m
    | .ok .mark => .ok ((w, .mark) :: ws.map fun w ↦ (w, .operand))
    | .ok k => (t.classifyAll ws).map ((w, k) :: ·)

end Table

/-- What takes effect. -/
inductive Event (κ : Type) where
  | option (key : κ) (value : Option Text)
  | operand (words : List Text)
  /-- A word that nothing knows. -/
  | stray (word : Text)
  | misuse (m : Misuse)

/-- The room for operands. -/
inductive Room where
  | none
  /-- Room for one. -/
  | one
  /-- Room for one and all that follows it, whatever it is. -/
  | rest

section

variable {κ : Type}

/-- What an option without a value in its own word amounts to: it may take the operand that comes
next, which the second component tells. -/
def Switch.alone (s : Switch κ) (next : Option Text) : Except Misuse (List (Event κ) × Bool) :=
  if s.takesValue then
    match next with
    | some v => .ok ([.option s.key (some v)], true)
    | none => .error (.noValue s.names)
  else .ok ([.option s.key none], false)

/-- What an option with a value behind an equals sign amounts to. -/
def Switch.equalTo (s : Switch κ) (value : Text) : Except Misuse (List (Event κ) × Bool) :=
  if s.takesValue then .ok ([.option s.key (some value)], false)
  else .error (.unwantedValue s.names value)

/-- What a short option amounts to that has more letters behind it: they are its value if it takes
one, and further short options otherwise. -/
def Switch.bundle (t : Table κ) (next : Option Text) (s : Switch κ) :
    Text → Except Misuse (List (Event κ) × Bool)
  | [] => s.alone next
  | c :: cs =>
    if s.takesValue then .ok ([.option s.key (some (c :: cs))], false)
    else if c = dash then .error (.unwantedValue s.names (c :: cs))
    else
      match t.find? [dash, c] with
      | none => .ok ([.stray (dash :: c :: cs), .option s.key none], false)
      | some s' =>
        let more := match cs with
          | e :: value => if e = equals then s'.equalTo value else bundle t next s' cs
          | [] => bundle t next s' cs
        more.map fun m ↦ (.option s.key none :: m.1, m.2)

/-- What an option amounts to. -/
def Use.events (t : Table κ) (next : Option Text) (u : Use κ) :
    Except Misuse (List (Event κ) × Bool) :=
  match u.attached with
  | .nothing => u.switch.alone next
  | .equal value => u.switch.equalTo value
  | .direct value => u.switch.bundle t next value

/-- The operand that comes next, if there is room for it, and what follows it. -/
def takeOperand (room : Room) (tokens : List (Text × Word κ)) :
    Option (List Text × List (Text × Word κ)) :=
  match tokens.dropWhile (·.2.isMark) with
  | (w, .operand) :: more =>
    match room with
    | .none => none
    | .one => some ([w], more.dropWhile (·.2.isMark))
    | .rest => some (tokens.map (·.1), [])
  | _ => none

theorem length_dropWhile_le {α : Type} (p : α → Bool) (l : List α) :
    (l.dropWhile p).length ≤ l.length := (List.dropWhile_sublist p).length_le

/-- An operand that is taken leaves less behind. -/
theorem length_takeOperand_lt {room : Room} {tokens rest : List (Text × Word κ)} {ws : List Text}
    (h : takeOperand room tokens = some (ws, rest)) : rest.length < tokens.length := by
  unfold takeOperand at h
  have hd := length_dropWhile_le (fun t : Text × Word κ ↦ t.2.isMark) tokens
  split at h
  next w more he =>
    rw [he, List.length_cons] at hd
    split at h
    next => cases h
    next =>
      cases h
      have := length_dropWhile_le (fun t : Text × Word κ ↦ t.2.isMark) more
      omega
    next =>
      cases h
      simp only [List.length_nil]
      omega
  next => cases h

/-- The operand at the start of the words. -/
def nextOperand? : List (Text × Word κ) → Option Text
  | (w, .operand) :: _ => some w
  | _ => none

/-- What the words of a command line amount to, in order, up to the first misuse. -/
def scan (t : Table κ) (room : Room) (tokens : List (Text × Word κ)) : List (Event κ) :=
  match _h : takeOperand room tokens with
  | some (words, rest) => .operand words :: scan t .none rest
  | none =>
    match tokens with
    | [] => []
    | (_, .option u) :: rest =>
      match u.events t (nextOperand? rest) with
      | .error m => [.misuse m]
      | .ok (es, taken) => es ++ scan t room (rest.drop (if taken then 1 else 0))
    | (w, _) :: rest => .stray w :: scan t room rest
termination_by tokens.length
decreasing_by
  · exact length_takeOperand_lt _h
  · simp only [List.length_cons, List.length_drop]
    omega
  · simp only [List.length_cons]
    omega

/-- What a command line amounts to. -/
def events (t : Table κ) (room : Room) (words : List Text) : List (Event κ) :=
  match t.classifyAll words with
  | .error m => [.misuse m]
  | .ok tokens => scan t room tokens

end

end CodeAtlas.CommandLine
