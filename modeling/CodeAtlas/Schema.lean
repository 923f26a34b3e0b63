import CodeAtlas.Json.Reader
import CodeAtlas.Text.Blank
import CodeAtlas.Text.LetterCase

/-!
# Checking values

A checker takes a JSON value to a value of another type, or lists everything that is wrong with it,
each issue with the path to the part that has it. Values that mean the same are accepted in place of
the right ones: digits for a number, a whole number with a fraction of zeros for an integer, words
for yes and no. Checkers for the members of an object are combined with `<*>`, which keeps the issues
of both sides in order: `issues_seq` is the law.
-/

namespace CodeAtlas.Schema

/-- A step on the way to a part of a value. -/
inductive Step where
  | name (t : Text)
  | index (n : Nat)
  deriving DecidableEq

/-- What is wrong with a part of a value. -/
inductive Fault where
  | missing
  | notText
  | notInteger
  | noIntegerText
  | integerTooLong
  | fraction
  | notFinite
  | notFlag
  | noFlagText
  | notNumber
  | noNumberText
  | notList
  | notObject (what : String)
  /-- A body that is no object. -/
  | notBody
  | notPath
  | notOneOf (choices : List String)
  /-- A value that a rule refuses, with the rule's words. -/
  | refused (reason : Text)
  /-- A body that is no JSON. -/
  | notJson
  deriving DecidableEq

namespace Fault

/-- Alternatives in words, the last one after `or`. -/
def alternatives : List String → String
  | [] => ""
  | [a] => "'" ++ a ++ "'"
  | [a, b] => "'" ++ a ++ "' or '" ++ b ++ "'"
  | a :: rest => "'" ++ a ++ "', " ++ alternatives rest

/-- The name of a fault. -/
def code : Fault → String
  | missing => "missing"
  | notText => "string_type"
  | notInteger => "int_type"
  | noIntegerText => "int_parsing"
  | integerTooLong => "int_parsing_size"
  | fraction => "int_from_float"
  | notFinite => "finite_number"
  | notFlag => "bool_type"
  | noFlagText => "bool_parsing"
  | notNumber => "float_type"
  | noNumberText => "float_parsing"
  | notList => "list_type"
  | notObject _ => "model_type"
  | notBody => "model_attributes_type"
  | notPath => "path_type"
  | notOneOf _ => "literal_error"
  | refused _ => "value_error"
  | notJson => "json_invalid"

/-- A fault in words. -/
def message : Fault → Text
  | missing => Text.ofString "Field required"
  | notText => Text.ofString "Input should be a valid string"
  | notInteger => Text.ofString "Input should be a valid integer"
  | noIntegerText =>
    Text.ofString "Input should be a valid integer, unable to parse string as an integer"
  | integerTooLong =>
    Text.ofString "Unable to parse input string as an integer, exceeded maximum size"
  | fraction =>
    Text.ofString "Input should be a valid integer, got a number with a fractional part"
  | notFinite => Text.ofString "Input should be a finite number"
  | notFlag => Text.ofString "Input should be a valid boolean"
  | noFlagText => Text.ofString "Input should be a valid boolean, unable to interpret input"
  | notNumber => Text.ofString "Input should be a valid number"
  | noNumberText =>
    Text.ofString "Input should be a valid number, unable to parse string as a number"
  | notList => Text.ofString "Input should be a valid list"
  | notObject what =>
    Text.ofString "Input should be a valid dictionary or instance of " ++ Text.ofString what
  | notBody =>
    Text.ofString "Input should be a valid dictionary or object to extract fields from"
  | notPath => Text.ofString "Input is not a valid path for <class 'pathlib.Path'>"
  | notOneOf choices => Text.ofString "Input should be " ++ Text.ofString (alternatives choices)
  | refused reason => Text.ofString "Value error, " ++ reason
  | notJson => Text.ofString "JSON decode error"

end Fault

/-- A fault and the path to the part that has it. -/
structure Issue where
  path : List Step
  fault : Fault
  deriving DecidableEq

/-- A value that has passed, or all issues of one that has not. -/
inductive Checked (α : Type) where
  | passed (value : α)
  | failed (issues : List Issue)

namespace Checked

variable {α β : Type}

/-- The issues of a check. -/
def issues : Checked α → List Issue
  | passed _ => []
  | failed is => is

/-- A check that finds one fault, in the value itself. -/
def fault (f : Fault) : Checked α := failed [⟨[], f⟩]

/-- Changes the value that has passed. -/
def map (f : α → β) : Checked α → Checked β
  | passed a => passed (f a)
  | failed is => failed is

/-- Two checks, the issues of the first before those of the second. -/
def seq : Checked (α → β) → Checked α → Checked β
  | passed f, passed a => passed (f a)
  | passed _, failed js => failed js
  | failed is, passed _ => failed is
  | failed is, failed js => failed (is ++ js)

instance : Functor Checked := ⟨Checked.map, fun a c ↦ c.map fun _ ↦ a⟩

instance : Seq Checked := ⟨fun f x ↦ f.seq (x ())⟩

instance : Pure Checked := ⟨passed⟩

/-- A check that is made only of a value that has passed another. -/
def andThen (c : Checked α) (f : α → Checked β) : Checked β :=
  match c with
  | passed a => f a
  | failed is => failed is

/-- Puts a step in front of the path of every issue. -/
def under (s : Step) : Checked α → Checked α
  | passed a => passed a
  | failed is => failed (is.map fun i ↦ ⟨s :: i.path, i.fault⟩)

/-- The issues of two checks are those of the first and those of the second. -/
theorem issues_seq (f : Checked (α → β)) (x : Checked α) :
    (f.seq x).issues = f.issues ++ x.issues := by
  cases f <;> cases x <;> simp [seq, issues]

end Checked

/-- Checks a value. -/
abbrev Checker (α : Type) := Json → Checked α

open Checked

/-- Digits with single underscores between them. -/
def digits? (t : Text) : Option Nat :=
  let digits := t.filter (·.isDigit)
  let joined := t.filter (·.val != 0x5F)
  let edges := t.head?.any (·.val == 0x5F) || t.getLast?.any (·.val == 0x5F)
  let doubled := Text.contains (Text.ofString "__") t
  if t.isEmpty || digits.isEmpty || digits.length != joined.length || edges || doubled then none
  else some (digits.foldl (fun n d ↦ 10 * n + (d.val - 0x30)) 0)

/-- Drops a fraction that consists of zeros. -/
def withoutZeroFraction (t : Text) : Text :=
  let whole := t.takeWhile (·.val != 0x2E)
  match t.dropWhile (·.val != 0x2E) with
  | [] => t
  | _ :: fraction => if fraction.all (·.val == 0x30) then whole else t

/-- How long the text of an integer may be. -/
def longestInteger : Nat := 4300

/-- The integer that a text stands for: digits with a sign and a fraction of zeros, perhaps, and
white space around them. -/
def integerOfText (t : Text) : Checked Int :=
  let t := t.trimWhere CodePoint.isWhiteSpace
  let (negative, rest) : Bool × Text := match t with
    | c :: cs => if c.val == 0x2D then (true, cs) else if c.val == 0x2B then (false, cs) else (false, t)
    | [] => (false, [])
  match digits? (withoutZeroFraction rest) with
  | some n =>
    if longestInteger < t.length then fault .integerTooLong
    else passed (if negative then -n else n)
  | none => fault .noIntegerText

/-- What integers are below that come from numbers with a fraction: two to the power 63. -/
def wordLimit : Nat := 0x8000000000000000

/-- The whole number that a number without a fraction stands for. -/
def integerOfNumber : Binary64 → Checked Int
  | .finite negative m e =>
    let whole? : Option Nat :=
      if 0 ≤ e then some (m * Nat.pow 2 e.toNat)
      else if m % Nat.pow 2 (-e).toNat = 0 then some (m / Nat.pow 2 (-e).toNat)
      else none
    match whole? with
    | none => fault .fraction
    | some n => if n < wordLimit then passed (if negative then -n else n) else fault .integerTooLong
  | _ => fault .notFinite

/-- A text. -/
def text : Checker Text
  | .text t => passed t
  | _ => fault .notText

/-- An integer. -/
def integer : Checker Int
  | .int n => passed n
  | .bool b => passed (if b then 1 else 0)
  | .real x => integerOfNumber x
  | .text t => integerOfText t
  | _ => fault .notInteger

/-- The words for yes. -/
def yes : List String := ["1", "t", "y", "on", "yes", "true"]

/-- The words for no. -/
def no : List String := ["0", "f", "n", "no", "off", "false"]

/-- The lower-case form of the letters of ASCII. -/
def asciiLower (t : Text) : Text :=
  t.map fun c ↦ if 0x41 ≤ c.val && c.val ≤ 0x5A then CodePoint.ofNat (c.val + 0x20) else c

/-- The integer that stands for yes or no. -/
def flagOfInt (n : Int) : Checked Bool :=
  if n = 0 then passed false else if n = 1 then passed true else fault .noFlagText

/-- Yes or no. -/
def flag : Checker Bool
  | .bool b => passed b
  | .int n => if n.natAbs < wordLimit then flagOfInt n else fault .notFlag
  | .real x =>
    match integerOfNumber x with
    | passed n => flagOfInt n
    | failed _ => fault .notFlag
  | .text t =>
    let word := asciiLower t
    if yes.any (Text.ofString · = word) then passed true
    else if no.any (Text.ofString · = word) then passed false
    else fault .noFlagText
  | _ => fault .notFlag

/-- The value that a word without digits stands for. -/
def wordNumber? (negative : Bool) (word : Text) : Option Binary64 :=
  if word = Text.ofString "nan" then some .notANumber
  else if word = Text.ofString "inf" || word = Text.ofString "infinity" then
    some (.infinite negative)
  else none

/-- The value that a text stands for, with white space around it, perhaps. -/
def numberOfText (t : Text) : Checked Binary64 :=
  let t := t.trimWhere CodePoint.isWhiteSpace
  let (negative, rest) : Bool × Text := match t with
    | c :: cs => if c.val == 0x2D then (true, cs) else if c.val == 0x2B then (false, cs) else (false, t)
    | [] => (false, [])
  let (whole, tail) := Json.spanDigits rest
  let (fraction, tail) : Text × Text := match tail with
    | c :: cs => if c.val == 0x2E then Json.spanDigits cs else ([], tail)
    | [] => ([], [])
  let (exponent?, _, tail) := Json.spanExponent tail
  if tail.isEmpty && !(whole ++ fraction).isEmpty then
    passed (.ofDecimal negative (Json.digitsValue (whole ++ fraction))
      (exponent?.getD 0 - fraction.length))
  else match wordNumber? negative (asciiLower rest) with
    | some x => passed x
    | none => fault .noNumberText

/-- A number with a fraction. -/
def number : Checker Binary64
  | .real x => passed x
  | .int n => passed (.ofInt n)
  | .bool b => passed (.ofInt (if b then 1 else 0))
  | .text t => numberOfText t
  | _ => fault .notNumber

/-- One of several words; what the word stands for is the answer. -/
def oneOf {α : Type} (choices : List (String × α)) : Checker α
  | .text t =>
    match choices.find? (fun c ↦ Text.ofString c.1 = t) with
    | some c => passed c.2
    | none => fault (.notOneOf (choices.map (·.1)))
  | _ => fault (.notOneOf (choices.map (·.1)))

/-- A value or null. -/
def optional {α : Type} (c : Checker α) : Checker (Option α)
  | .null => passed none
  | v => (c v).map some

/-- Checks the elements of a list, from the given index on. -/
def elements {α : Type} (c : Checker α) (index : Nat) : List Json → Checked (List α)
  | [] => passed []
  | v :: vs => ((c v).under (.index index)).map (fun a as ↦ a :: as) |>.seq (elements c (index + 1) vs)

/-- A list. -/
def list {α : Type} (c : Checker α) : Checker (List α)
  | .list vs => elements c 0 vs
  | _ => fault .notList

/-- An object, whose members are checked together. -/
def object {α : Type} (otherwise : Fault) (c : Members Json → Checked α) : Checker α
  | .object ms => c ms
  | _ => fault otherwise

/-- A member of an object under the first of its names that is there. If there is none, the default
is taken, or the member is missing. -/
def member {α : Type} (names : List String) (default? : Option α) (c : Checker α)
    (ms : Members Json) : Checked α :=
  let found := names.findSome? fun n ↦ (ms.get? (Text.ofString n)).map fun v ↦ (n, v)
  match found, default? with
  | some (n, v), _ => (c v).under (.name (Text.ofString n))
  | none, some d => passed d
  | none, none => failed [⟨(names.take 1).map (.name <| Text.ofString ·), .missing⟩]

end CodeAtlas.Schema
