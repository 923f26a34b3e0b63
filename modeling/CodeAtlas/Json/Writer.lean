import CodeAtlas.Json.Value
import CodeAtlas.Text.Quoted

/-!
# Writing JSON

One writer serves three layouts, which differ in their marks, in the escaping of code points outside
ASCII and in the numbers: `Layout.compact`, `Layout.spaced` for the lines of a log, and
`Layout.indented` for documents.
-/

namespace CodeAtlas.Json

/-- How a value is laid out. -/
structure Layout where
  /-- How many spaces a level is indented by; without indentation all stands on one line. -/
  indent : Option Nat
  comma : String
  colon : String
  /-- Whether all that is not printable ASCII is escaped. -/
  ascii : Bool
  /-- Whether a value without digits is written as null. -/
  digitsOnly : Bool
  number : Binary64.Style

namespace Layout

/-- Numbers with two digits of an exponent, which begins below 10^-4. -/
def longExponent : Binary64.Style := ⟨-4, 15, 2, "NaN", "Infinity", "-"⟩

/-- Numbers with as many digits of an exponent as needed, which begins below 10^-5. -/
def shortExponent : Binary64.Style := ⟨-5, 15, 1, "NaN", "Infinity", "-"⟩

/-- All on one line without blanks. -/
def compact : Layout := ⟨none, ",", ":", true, false, longExponent⟩

/-- All on one line with a blank after each mark. -/
def spaced : Layout := ⟨none, ", ", ": ", true, false, longExponent⟩

/-- A line for each value, indented by two spaces a level. -/
def indented : Layout := ⟨some 2, ",", ": ", false, true, shortExponent⟩

end Layout

/-- The escape of a number below 2^16. -/
def codeEscape (n : Nat) : Text := Text.ofString "\\u" ++ Text.hexDigits 4 n

/-- How one code point stands in a written text. -/
def writeCodePoint (ascii : Bool) (c : CodePoint) : Text :=
  let n := c.val
  if n == 0x22 then Text.ofString "\\\""
  else if n == 0x5C then Text.ofString "\\\\"
  else if n == 0x0A then Text.ofString "\\n"
  else if n == 0x0D then Text.ofString "\\r"
  else if n == 0x09 then Text.ofString "\\t"
  else if n == 0x08 then Text.ofString "\\b"
  else if n == 0x0C then Text.ofString "\\f"
  else if n < 0x20 then codeEscape n
  else if !ascii || n < 0x7F then [c]
  else if n < 0x10000 then codeEscape n
  else
    codeEscape (0xD800 + (n - 0x10000) / 0x400) ++ codeEscape (0xDC00 + (n - 0x10000) % 0x400)

/-- A text between quotation marks. -/
def writeText (ascii : Bool) (t : Text) : Text :=
  Text.quotationMark :: (t.flatMap (writeCodePoint ascii) ++ [Text.quotationMark])

namespace Layout

/-- What stands in front of an element at the given depth. -/
def lineStart (l : Layout) (depth : Nat) : Text :=
  match l.indent with
  | none => []
  | some width => Text.ofString "\n" ++ List.replicate (width * depth) (CodePoint.ofNat 0x20)

/-- A value that holds no other. -/
def scalar (l : Layout) : Json → Text
  | .bool true => Text.ofString "true"
  | .bool false => Text.ofString "false"
  | .int n => Text.ofInt n
  | .real x =>
    match x with
    | .finite .. => Text.ofString (l.number.write x)
    | _ => Text.ofString (if l.digitsOnly then "null" else l.number.write x)
  | .text t => writeText l.ascii t
  | _ => Text.ofString "null"

mutual

/-- Writes a value at the given depth. -/
def write (l : Layout) (depth : Nat) : Json → Text
  | .list [] => Text.ofString "[]"
  | .list (x :: xs) =>
    Text.ofString "[" ++ l.lineStart (depth + 1) ++ write l (depth + 1) x ++
      writeElements l (depth + 1) xs ++ l.lineStart depth ++ Text.ofString "]"
  | .object [] => Text.ofString "\x7b\x7d"
  | .object ((k, v) :: ms) =>
    Text.ofString "\x7b" ++ l.lineStart (depth + 1) ++ writeText l.ascii k ++
      Text.ofString l.colon ++ write l (depth + 1) v ++ writeMembers l (depth + 1) ms ++
      l.lineStart depth ++ Text.ofString "\x7d"
  | v => l.scalar v

/-- Writes further elements of a list. -/
def writeElements (l : Layout) (depth : Nat) : List Json → Text
  | [] => []
  | x :: xs =>
    Text.ofString l.comma ++ l.lineStart depth ++ write l depth x ++ writeElements l depth xs

/-- Writes further members of an object. -/
def writeMembers (l : Layout) (depth : Nat) : List (Text × Json) → Text
  | [] => []
  | (k, v) :: ms =>
    Text.ofString l.comma ++ l.lineStart depth ++ writeText l.ascii k ++ Text.ofString l.colon ++
      write l depth v ++ writeMembers l depth ms

end

end Layout

/-- A value on one line without blanks, in ASCII. -/
def compact (v : Json) : Text := Layout.compact.write 0 v

/-- A value on one line with a blank after each mark, in ASCII. -/
def spaced (v : Json) : Text := Layout.spaced.write 0 v

/-- A value on lines of its own, with all but the controls as they are. -/
def indented (v : Json) : Text := Layout.indented.write 0 v

end CodeAtlas.Json
