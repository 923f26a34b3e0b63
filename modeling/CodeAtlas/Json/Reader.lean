import CodeAtlas.Json.Value

/-!
# Reading JSON

`Json.read` reads one value from a text, with blanks around it, and reports where and why it cannot.
Escapes of two surrogates that belong together give one code point; any other surrogate is kept as it
is. Besides the standard's numbers the three words for values without digits are read.
-/

namespace CodeAtlas.Json

/-- What is missing or wrong. -/
inductive Trouble where
  | value
  | comma
  | colon
  | name
  | openText
  | control
  | badEscape
  | badCode
  | extra
  deriving DecidableEq, Repr

/-- Where reading stopped, counted in code points, and why. -/
structure ReadError where
  trouble : Trouble
  position : Nat
  deriving DecidableEq, Repr

/-- What is left to read, and the position where it starts. -/
structure Cursor where
  rest : Text
  position : Nat

namespace Cursor

/-- Drops the blanks that JSON admits between its tokens. -/
def skipBlanks : Cursor → Cursor
  | ⟨rest, p⟩ => go rest p
where
  go : Text → Nat → Cursor
    | [], p => ⟨[], p⟩
    | c :: cs, p =>
      if c.val == 0x20 || c.val == 0x09 || c.val == 0x0A || c.val == 0x0D then go cs (p + 1)
      else ⟨c :: cs, p⟩

/-- What follows a word, if the word comes next. -/
def after? (c : Cursor) (word : String) : Option Cursor :=
  let w := Text.ofString word
  if w.isPrefixOf c.rest then some ⟨c.rest.drop w.length, c.position + w.length⟩ else none

end Cursor

/-- The value of a digit in base sixteen. -/
def hexValue? (c : CodePoint) : Option Nat :=
  let n := c.val
  if 0x30 ≤ n && n ≤ 0x39 then some (n - 0x30)
  else if 0x61 ≤ n && n ≤ 0x66 then some (n - 0x57)
  else if 0x41 ≤ n && n ≤ 0x46 then some (n - 0x37)
  else none

/-- The number that four digits in base sixteen stand for. -/
def code? (a b c d : CodePoint) : Option Nat := do
  let a ← hexValue? a
  let b ← hexValue? b
  let c ← hexValue? c
  let d ← hexValue? d
  return ((a * 16 + b) * 16 + c) * 16 + d

/-- What a backslash and one more code point stand for. -/
def escape? (c : CodePoint) : Option CodePoint :=
  match c.toChar with
  | '"' | '\\' | '/' => some c
  | 'b' => some (CodePoint.ofNat 8)
  | 'f' => some (CodePoint.ofNat 12)
  | 'n' => some (CodePoint.ofNat 10)
  | 'r' => some (CodePoint.ofNat 13)
  | 't' => some (CodePoint.ofNat 9)
  | _ => none

/-- The second half of a pair of surrogates: `none` if no escape follows that could be one, an error
if its digits are wrong, and otherwise the number that it stands for. -/
def secondHalf (p : Nat) : Text → Except ReadError (Option Nat)
  | b :: u :: c₁ :: c₂ :: c₃ :: c₄ :: _ :: _ =>
    if b.val == 0x5C && u.val == 0x75 then
      match code? c₁ c₂ c₃ c₄ with
      | none => .error ⟨.badCode, p + 1⟩
      | some n => .ok (if 0xDC00 ≤ n && n ≤ 0xDFFF then some n else none)
    else .ok none
  | _ => .ok none

/-- Reads the rest of a text that begins at `start`; `acc` holds what has been read, in reverse. -/
def readText (start : Nat) (acc : Text) (rest : Text) (p : Nat) :
    Except ReadError (Text × Cursor) :=
  match rest with
  | [] => .error ⟨.openText, start⟩
  | c :: cs =>
    if c.val == 0x22 then .ok (acc.reverse, ⟨cs, p + 1⟩)
    else if c.val == 0x5C then
      match cs with
      | [] => .error ⟨.openText, start⟩
      | d :: ds =>
        if d.val == 0x75 then
          match ds with
          | c₁ :: c₂ :: c₃ :: c₄ :: e :: es =>
            match code? c₁ c₂ c₃ c₄ with
            | none => .error ⟨.badCode, p + 1⟩
            | some n =>
              if 0xD800 ≤ n && n ≤ 0xDBFF then
                match secondHalf (p + 6) (e :: es) with
                | .error x => .error x
                | .ok (some m) =>
                  let whole := 0x10000 + (n - 0xD800) * 0x400 + (m - 0xDC00)
                  readText start (CodePoint.ofNat whole :: acc) (es.drop 5) (p + 12)
                | .ok none => readText start (CodePoint.ofNat n :: acc) (e :: es) (p + 6)
              else readText start (CodePoint.ofNat n :: acc) (e :: es) (p + 6)
          | _ => .error ⟨.badCode, p + 1⟩
        else match escape? d with
          | some x => readText start (x :: acc) ds (p + 2)
          | none => .error ⟨.badEscape, p⟩
    else if c.val < 0x20 then .error ⟨.control, p⟩
    else readText start (c :: acc) cs (p + 1)
termination_by rest.length
decreasing_by all_goals (simp only [List.length_cons, List.length_drop]; omega)

/-- The number that a sequence of digits stands for. -/
def digitsValue (ds : Text) : Nat := ds.foldl (fun n d ↦ 10 * n + (d.val - 0x30)) 0

/-- The digits at the start of a text and what follows them. -/
def spanDigits (t : Text) : Text × Text := (t.takeWhile CodePoint.isDigit, t.dropWhile CodePoint.isDigit)

/-- Reads the digits after the mark of a fraction; without digits there is no fraction. -/
def spanFraction (t : Text) : Text × Text :=
  match t with
  | m :: cs =>
    let (ds, rest) := spanDigits cs
    if m.val == 0x2E && !ds.isEmpty then (ds, rest) else ([], t)
  | [] => ([], [])

/-- Reads an exponent; without digits there is none. The width of what was read comes with it. -/
def spanExponent (t : Text) : Option Int × Nat × Text :=
  match t with
  | m :: cs =>
    if m.val == 0x65 || m.val == 0x45 then
      let (negative, signs, cs) : Bool × Nat × Text := match cs with
        | s :: more =>
          if s.val == 0x2D then (true, 1, more) else if s.val == 0x2B then (false, 1, more)
          else (false, 0, cs)
        | [] => (false, 0, cs)
      let (ds, rest) := spanDigits cs
      if ds.isEmpty then (none, 0, t)
      else
        let n : Int := digitsValue ds
        (some (if negative then -n else n), 1 + signs + ds.length, rest)
    else (none, 0, t)
  | [] => (none, 0, [])

/-- Reads a number; `none` if no number comes next. -/
def readNumber? (c : Cursor) : Option (Json × Cursor) :=
  let (negative, rest) : Bool × Text := match c.rest with
    | m :: cs => if m.val == 0x2D then (true, cs) else (false, c.rest)
    | [] => (false, [])
  let sign := if negative then 1 else 0
  let (whole, rest) : Text × Text := match rest with
    | d :: ds => if d.val == 0x30 then ([d], ds) else spanDigits rest
    | [] => ([], [])
  if whole.isEmpty then none
  else
    let (fraction, rest) := spanFraction rest
    let (exponent?, width, rest) := spanExponent rest
    let marks := if fraction.isEmpty then 0 else 1 + fraction.length
    let cursor : Cursor := ⟨rest, c.position + sign + whole.length + marks + width⟩
    if fraction.isEmpty && exponent?.isNone then
      let n : Int := digitsValue whole
      some (.int (if negative then -n else n), cursor)
    else
      let exponent := exponent?.getD 0 - fraction.length
      some (.real (.ofDecimal negative (digitsValue (whole ++ fraction)) exponent), cursor)

/-- The words that stand for values, and what they stand for. -/
def constants : List (String × Json) :=
  [("null", .null), ("true", .bool true), ("false", .bool false), ("NaN", .real .notANumber),
    ("Infinity", .real (.infinite false)), ("-Infinity", .real (.infinite true))]

/-- Reads one of the words that stand for values. -/
def readConstant? (c : Cursor) : Option (Json × Cursor) :=
  constants.findSome? fun k ↦ (c.after? k.1).map fun c' ↦ (k.2, c')

mutual

/-- Reads a value; no more than `fuel` values within each other are read. -/
def readValue : Nat → Cursor → Except ReadError (Json × Cursor)
  | 0, c => .error ⟨.value, c.position⟩
  | fuel + 1, c =>
    match c.rest with
    | [] => .error ⟨.value, c.position⟩
    | x :: xs =>
      let inner : Cursor := ⟨xs, c.position + 1⟩
      if x.val == 0x22 then
        (readText c.position [] xs (c.position + 1)).map fun (t, c) ↦ (.text t, c)
      else if x.val == 0x5B then
        let c := inner.skipBlanks
        match c.after? "]" with
        | some c => .ok (.list [], c)
        | none => readElements fuel fuel [] c
      else if x.val == 0x7B then
        let c := inner.skipBlanks
        match c.after? "\x7d" with
        | some c => .ok (.object [], c)
        | none => readMembers fuel fuel [] c
      else match readConstant? c with
        | some r => .ok r
        | none => match readNumber? c with
          | some r => .ok r
          | none => .error ⟨.value, c.position⟩

/-- Reads the elements of a list, from the next one on. -/
def readElements : Nat → Nat → List Json → Cursor → Except ReadError (Json × Cursor)
  | 0, _, _, c => .error ⟨.value, c.position⟩
  | _ + 1, 0, _, c => .error ⟨.value, c.position⟩
  | fuel + 1, more + 1, acc, c =>
    match readValue fuel c with
    | .error e => .error e
    | .ok (v, c) =>
      let c := c.skipBlanks
      match c.after? "]" with
      | some c => .ok (.list (v :: acc).reverse, c)
      | none => match c.after? "," with
        | some c => readElements (fuel + 1) more (v :: acc) c.skipBlanks
        | none => .error ⟨.comma, c.position⟩

/-- Reads the members of an object, from the next one on. -/
def readMembers : Nat → Nat → List (Text × Json) → Cursor → Except ReadError (Json × Cursor)
  | 0, _, _, c => .error ⟨.name, c.position⟩
  | _ + 1, 0, _, c => .error ⟨.name, c.position⟩
  | fuel + 1, more + 1, acc, c =>
    match c.after? "\"" with
    | none => .error ⟨.name, c.position⟩
    | some inner =>
      match readText c.position [] inner.rest inner.position with
      | .error e => .error e
      | .ok (name, c) =>
        let c := c.skipBlanks
        match c.after? ":" with
        | none => .error ⟨.colon, c.position⟩
        | some c =>
          match readValue fuel c.skipBlanks with
          | .error e => .error e
          | .ok (v, c) =>
            let c := c.skipBlanks
            match c.after? "\x7d" with
            | some c => .ok (.object (Members.ofPairs ((name, v) :: acc).reverse), c)
            | none => match c.after? "," with
              | some c => readMembers (fuel + 1) more ((name, v) :: acc) c.skipBlanks
              | none => .error ⟨.comma, c.position⟩

end

/-- Reads a text that holds one value. -/
def read (t : Text) : Except ReadError Json :=
  match readValue (2 * t.length + 2) (Cursor.skipBlanks ⟨t, 0⟩) with
  | .error e => .error e
  | .ok (v, c) =>
    let c := c.skipBlanks
    if c.rest.isEmpty then .ok v else .error ⟨.extra, c.position⟩

end CodeAtlas.Json
