import CodeAtlas.Members
import CodeAtlas.Text.Blank

/-!
# Files of assignments

A file of assignments gives values to names, one assignment after the other: `NAME=value`, perhaps
with `export` in front and a comment behind. Values stand bare, in apostrophes or in quotation marks;
a quoted value may go on over several lines, and escapes are read in it. In each value, references to
names assigned before or found in the environment are replaced. A line that is no assignment is
passed over. `DotEnv.read` reads such a file.
-/

namespace CodeAtlas.DotEnv

/-- Whether a code point ends a line. -/
def endsLine (c : CodePoint) : Bool := c.val == 0x0A || c.val == 0x0D

/-- Whether a code point is a blank within a line. -/
def isInnerBlank (c : CodePoint) : Bool := c.isBlank && !endsLine c

/-- Drops the blanks that do not end a line. -/
def skipInner (t : Text) : Text := t.dropWhile isInnerBlank

/-- Drops what is left of a line, and the end of the line. -/
def skipLine (t : Text) : Text :=
  match t.dropWhile (!endsLine ·) with
  | [] => []
  | _ :: rest => rest

/-- Drops the word that may stand in front of an assignment, with the blanks behind it. -/
def skipExport (t : Text) : Text :=
  let word := Text.ofString "export"
  if word.isPrefixOf t then
    let rest := t.drop word.length
    if rest.head?.any isInnerBlank then skipInner rest else t
  else t

/-- Where a quoted value ends: at the first quote that no backslash precedes. If there is none, it
ends at the last quote of all. The number of code points in front of that quote is given. -/
def closing? (quote : CodePoint) : (before : Option CodePoint) → (index : Nat) → (last : Option Nat) →
    Text → Option Nat
  | _, _, last, [] => last
  | before, i, last, c :: cs =>
    if c = quote then
      if before.any (·.val == 0x5C) then closing? quote (some c) (i + 1) (some i) cs else some i
    else closing? quote (some c) (i + 1) last cs

/-- What a backslash and one more code point stand for in a value; in apostrophes, only backslashes
and apostrophes are escaped. -/
def escape? (quote c : CodePoint) : Option CodePoint :=
  match c.toChar with
  | '\\' | '\'' => some c
  | x =>
    if quote.val == 0x27 then none
    else match x with
      | '"' => some c
      | 'a' => some (CodePoint.ofNat 7)
      | 'b' => some (CodePoint.ofNat 8)
      | 'f' => some (CodePoint.ofNat 12)
      | 'n' => some (CodePoint.ofNat 10)
      | 'r' => some (CodePoint.ofNat 13)
      | 't' => some (CodePoint.ofNat 9)
      | 'v' => some (CodePoint.ofNat 11)
      | _ => none

/-- Replaces the escapes in a quoted value. -/
def unescape (quote : CodePoint) : Text → Text
  | [] => []
  | [c] => [c]
  | c :: d :: rest =>
    if c.val == 0x5C then
      match escape? quote d with
      | some x => x :: unescape quote rest
      | none => c :: unescape quote (d :: rest)
    else c :: unescape quote (d :: rest)

/-- Drops a comment, with the blanks in front of it. -/
def withoutComment : Text → Text
  | [] => []
  | c :: cs =>
    if c.isBlank && ((c :: cs).dropWhile CodePoint.isBlank).head?.any (·.val == 0x23) then []
    else c :: withoutComment cs

/-- Drops the blanks at the end. -/
def trimEnd (t : Text) : Text := (t.reverse.dropWhile CodePoint.isBlank).reverse

/-- Reads the value of an assignment; `none` if a quoted value does not end. -/
def value? (t : Text) : Option (Text × Text) :=
  match t with
  | [] => some ([], [])
  | c :: cs =>
    if c.val == 0x27 || c.val == 0x22 then
      (closing? c none 0 none cs).map fun n ↦ (unescape c (cs.take n), cs.drop (n + 1))
    else if endsLine c then some ([], t)
    else some (trimEnd (withoutComment (t.takeWhile (!endsLine ·))), t.dropWhile (!endsLine ·))

/-- Whether a code point may stand in a name that is not quoted. -/
def isNamePoint (c : CodePoint) : Bool := c.val != 0x3D && c.val != 0x23 && !c.isBlank

/-- Reads the name of an assignment: a comment has none, and `none` is given for no name at all. -/
def name? (t : Text) : Option (Option Text × Text) :=
  match t with
  | [] => none
  | c :: cs =>
    if c.val == 0x23 then some (none, t)
    else if c.val == 0x27 then
      let name := cs.takeWhile (·.val != 0x27)
      match cs.dropWhile (·.val != 0x27) with
      | _ :: rest => if name.isEmpty then none else some (some name, rest)
      | [] => none
    else
      let name := t.takeWhile isNamePoint
      if name.isEmpty then none else some (some name, t.dropWhile isNamePoint)

/-- Reads what may stand behind a value up to the end of its line; `none` if anything else does. -/
def lineEnd? (t : Text) : Option Text :=
  let t := match skipInner t with
    | c :: cs => if c.val == 0x23 then cs.dropWhile (!endsLine ·) else t
    | [] => []
  match skipInner t with
  | [] => some []
  | c :: cs => if endsLine c then some cs else none

/-- Reads one line or one assignment: what it assigns, if anything, and what follows it. -/
def binding (t : Text) : Option (Text × Option Text) × Text :=
  let t := skipExport t
  match name? t with
  | none => (none, skipLine t)
  | some (name, t) =>
    let t := skipInner t
    let assigned : Option (Option Text) × Text := match t with
      | c :: cs =>
        if c.val == 0x3D then
          let t := skipInner cs
          match value? t with
          | some (v, rest) => (some (some v), rest)
          | none => (none, t)
        else (some none, t)
      | [] => (some none, [])
    match assigned with
    | (none, rest) => (none, skipLine rest)
    | (some v, rest) =>
      match lineEnd? rest with
      | none => (none, skipLine rest)
      | some rest => (name.map fun n ↦ (n, v), rest)

/-- The assignments of a text, in order, no more than `fuel` lines being read. -/
def bindings : Nat → Text → List (Text × Option Text)
  | 0, _ => []
  | fuel + 1, t =>
    match t.dropWhile CodePoint.isBlank with
    | [] => []
    | c :: cs =>
      let (assigned, rest) := binding (c :: cs)
      assigned.toList ++ bindings fuel rest

/-- Reads a reference to a name, from behind its opening mark on: the name, the value to be taken if
it has none, and what follows. -/
def reference? (t : Text) : Option (Text × Text × Text) :=
  let name := t.takeWhile fun c ↦ c.val != 0x7D && c.val != 0x3A
  match t.dropWhile fun c ↦ c.val != 0x7D && c.val != 0x3A with
  | [] => none
  | c :: cs =>
    if c.val == 0x7D then some (name, [], cs)
    else match cs with
      | d :: ds =>
        if d.val == 0x2D then
          match ds.dropWhile (·.val != 0x7D) with
          | _ :: rest => some (name, ds.takeWhile (·.val != 0x7D), rest)
          | [] => none
        else none
      | [] => none

/-- Replaces the references in a value, no more than `fuel` code points being read. -/
def resolve (known : Text → Option Text) : Nat → Text → Text
  | 0, t => t
  | _, [] => []
  | fuel + 1, c :: cs =>
    match c.val == 0x24, cs with
    | true, d :: ds =>
      match d.val == 0x7B, reference? ds with
      | true, some (name, otherwise, rest) =>
        (known name).getD otherwise ++ resolve known fuel rest
      | _, _ => c :: resolve known fuel cs
    | _, _ => c :: resolve known fuel cs

/-- The value of a name that was assigned before or is found in the environment. A name assigned
without a value has none. -/
def known (env : Members Text) (assigned : Members (Option Text)) (name : Text) : Option Text :=
  match assigned.get? name with
  | some v => some (v.getD [])
  | none => env.get? name

/-- Replaces the references in the values of assignments, one after the other. -/
def assign (env : Members Text) (assigned : Members (Option Text)) :
    List (Text × Option Text) → Members (Option Text)
  | [] => assigned
  | (name, v) :: rest =>
    let v := v.map fun t ↦ resolve (known env assigned) (t.length + 1) t
    assign env (assigned.put name v) rest

/-- Drops the mark that may stand at the start of an encoded file. -/
def withoutMark : Text → Text
  | [] => []
  | c :: cs => if c.val == 0xFEFF then cs else c :: cs

/-- Reads a file of assignments in an environment. -/
def read (env : Members Text) (t : Text) : Members (Option Text) :=
  let t := withoutMark t
  assign env [] (bindings (t.length + 1) t)

end CodeAtlas.DotEnv
