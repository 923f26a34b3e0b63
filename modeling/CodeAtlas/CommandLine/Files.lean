import CodeAtlas.Text.Path
import CodeAtlas.Text.Quoted
import CodeAtlas.Text.Utf8

/-!
# Files

A folder is a list of paths with what stands at each of them; the folders on the way to a file need not
be listed. `Folder.read` walks along a path as a file system does: names are looked up one after the
other, two dots lead back, and whatever prevents the walk is a fault with a number. Nothing is known of
what lies outside the folder.
-/

namespace CodeAtlas

/-- Why a file cannot be read. -/
inductive FileFault where
  | missing
  | notFolder
  | isFolder
  | longName
  /-- Another fault, with its number and its words. -/
  | other (number : Nat) (words : Text)
  deriving DecidableEq

namespace FileFault

/-- The number of a fault. -/
def number : FileFault → Nat
  | missing => 2
  | notFolder => 20
  | isFolder => 21
  | longName => 36
  | other n _ => n

/-- A fault in words. -/
def words : FileFault → Text
  | missing => Text.ofString "No such file or directory"
  | notFolder => Text.ofString "Not a directory"
  | isFolder => Text.ofString "Is a directory"
  | longName => Text.ofString "File name too long"
  | other _ w => w

/-- A fault with its number and the path that has it. -/
def message (f : FileFault) (p : Path) : Text :=
  Text.ofString "[Errno " ++ Text.ofNat f.number ++ Text.ofString "] " ++ f.words ++
    Text.ofString ": " ++ p.toText.quoted

end FileFault

/-- Why a text is no path. -/
inductive BadPath where
  /-- It holds the code point zero. -/
  | zero
  | unencodable (u : Utf8.Unencodable)
  deriving DecidableEq

namespace BadPath

/-- Whether a code point stands for an octet that is not part of any text. -/
def standsForOctet (c : CodePoint) : Bool := 0xDC80 ≤ c.val && c.val ≤ 0xDCFF

/-- The first run of surrogates that do not stand for octets. -/
def unencodable? (t : Text) : Option Utf8.Unencodable :=
  let fine (c : CodePoint) : Bool := !c.isSurrogate || standsForOctet c
  match t.dropWhile fine with
  | [] => none
  | c :: cs =>
    let start := (t.takeWhile fine).length
    some ⟨c, start, start + ((c :: cs).takeWhile CodePoint.isSurrogate).length⟩

/-- Why a text is no path, if it is none. -/
def ofText? (t : Text) : Option BadPath :=
  match unencodable? t with
  | some u => some (.unencodable u)
  | none => if t.any (·.val == 0) then some .zero else none

/-- The name of the failure that a bad path leads to. -/
def kind : BadPath → String
  | zero => "ValueError"
  | unencodable _ => "UnicodeEncodeError"

/-- A bad path in words. -/
def message : BadPath → Text
  | zero => Text.ofString "embedded null byte"
  | unencodable u => u.message

end BadPath

/-- What stands at the paths of a folder: the octets of a file, or `none` for a folder. -/
abbrev Folder := List (Path × Option (List UInt8))

namespace Folder

/-- What stands somewhere. -/
inductive Entry where
  | file (octets : List UInt8)
  | folder

/-- What stands at a sequence of names. -/
def standing? (f : Folder) (names : List Text) : Option Entry :=
  match f.reverse.find? (·.1.names = names) with
  | some (_, some octets) => some (.file octets)
  | some (_, none) => some .folder
  | none =>
    if names.isEmpty || f.any (fun e ↦ names.isPrefixOf e.1.names) then some .folder else none

/-- How many octets a name may have. -/
def longestName : Nat := 255

/-- How many octets a path may have. -/
def longestPath : Nat := 4095

/-- Two dots. -/
def parent : Text := Text.ofString ".."

/-- Walks along the names of a path from a place in the folder, which is given by the names that lead
to it; outside of the folder there is no such place. -/
def walk (f : Folder) : Option (List Text) → List Text → Except FileFault Entry
  | none, [] => .ok .folder
  | none, n :: ns => if n = parent then walk f none ns else .error .missing
  | some here, names =>
    match f.standing? here, names with
    | none, _ => .error .missing
    | some e, [] => .ok e
    | some (.file _), _ :: _ => .error .notFolder
    | some .folder, n :: ns =>
      if longestName < Utf8.size n then .error .longName
      else if n = parent then walk f (if here.isEmpty then none else some here.dropLast) ns
      else walk f (some (here ++ [n])) ns

/-- The octets of the file at a path. -/
def read (f : Folder) (p : Path) : Except FileFault (List UInt8) :=
  if longestPath < Utf8.size p.toText then .error .longName
  else
    match f.walk (if p.root = [] then some [] else none) p.names with
    | .error e => .error e
    | .ok .folder => .error .isFolder
    | .ok (.file octets) => .ok octets

end Folder

end CodeAtlas
