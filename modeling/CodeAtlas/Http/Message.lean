import CodeAtlas.Json.Reader
import CodeAtlas.Schema
import CodeAtlas.Text.LetterCase
import CodeAtlas.Text.Utf8

/-!
# Calls and replies

A call has a verb, a target, headers and a body; a reply has a status, what it holds, and the origin
that may read it. The path of a call is its target up to the query, with the escaped octets put in.
-/

namespace CodeAtlas.Http

/-- What a client asks. -/
structure Call where
  verb : Text
  target : Text
  headers : List (Text × Text)
  body : List UInt8

namespace Call

/-- The value of the first header with a name, whatever the case of its letters. -/
def header? (c : Call) (name : String) : Option Text :=
  (c.headers.find? fun h ↦ h.1.lower = Text.ofString name).map (·.2)

/-- The octets of a text in which a percent sign and two digits in base sixteen stand for one. -/
def unescape : Text → List UInt8
  | [] => []
  | [c] => Utf8.encodePoint c
  | [c, d] => Utf8.encodePoint c ++ Utf8.encodePoint d
  | c :: d :: e :: rest =>
    if c.val == 0x25 then
      match Json.hexValue? d, Json.hexValue? e with
      | some a, some b => (16 * a + b).toUInt8 :: unescape rest
      | _, _ => Utf8.encodePoint c ++ unescape (d :: e :: rest)
    else Utf8.encodePoint c ++ unescape (d :: e :: rest)

/-- The path of a call. -/
def path (c : Call) : Text :=
  Utf8.decode (unescape (c.target.takeWhile fun p ↦ p.val != 0x3F && p.val != 0x23))

end Call

/-- What a reply holds. -/
inductive Content where
  | json (v : Json)
  | text (t : Text)
  /-- What is wrong with the body of the call. -/
  | issues (is : List Schema.Issue)
  /-- A page about the service. -/
  | page

/-- What a client is answered. -/
structure Reply where
  status : Int
  content : Content
  /-- The origin that may read the reply. -/
  origin : Option Text

namespace Reply

/-- A reply that holds a value. -/
def json (status : Int) (v : Json) : Reply := ⟨status, .json v, none⟩

/-- A reply that holds a text. -/
def text (status : Int) (t : String) : Reply := ⟨status, .text (Text.ofString t), none⟩

/-- A reply that holds details. -/
def detail (status : Int) (words : String) : Reply :=
  json status (Json.record [("detail", Json.str words)])

/-- A reply that holds an error and what it means. -/
def failure (status : Int) (error : String) (message : Text) : Reply :=
  json status (Json.record [("error", Json.str error), ("message", .text message)])

/-- The reply of a service that broke down. -/
def breakdown : Reply := text 500 "Internal Server Error"

end Reply

end CodeAtlas.Http
