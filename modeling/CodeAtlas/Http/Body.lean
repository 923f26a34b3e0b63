import CodeAtlas.Http.Message
import CodeAtlas.Service.Basic
import CodeAtlas.Text.Blank

/-!
# What a call submits

The body of a call that submits a source is an object with the source and its language, which both have
defaults. A body counts as JSON only if the call says so.
-/

namespace CodeAtlas.Http

open Schema

/-- A source that is submitted. -/
structure Submission where
  code : Text
  language : Text

namespace Submission

/-- The languages by their names. -/
def languages : List (String × Text) := Request.languages.map fun l ↦ (l, Text.ofString l)

/-- Reads a submission. -/
def ofJson : Checker Submission :=
  object .notBody fun ms ↦
    Submission.mk <$> member ["code"] (some []) text ms <*>
      member ["language"] (some Request.defaultLanguage) (oneOf languages) ms

end Submission

/-- The kind of content that a header names, without its parameters and in small letters. -/
def mediaType (header : Text) : Text :=
  Text.lower (Text.trim (header.takeWhile fun c ↦ c.val != 0x3B))

/-- Whether a header names JSON. -/
def namesJson (header : Text) : Bool :=
  match (mediaType header).splitOn (CodePoint.ofNat 0x2F) with
  | [main, sub] =>
    main = Text.ofString "application" &&
      (sub = Text.ofString "json" || (Text.ofString "+json").isSuffixOf sub)
  | _ => false

/-- Whether the body of a call counts as JSON. -/
def Call.bringsJson (c : Call) : Bool := (c.header? "content-type").any namesJson

/-- The step to the body. -/
def bodyStep : Step := .name (Text.ofString "body")

/-- A fault in the body as a whole. -/
def bodyFault (f : Fault) : Checked Submission := .failed [⟨[bodyStep], f⟩]

/-- The octets behind a byte-order mark. -/
def withoutMark : List UInt8 → List UInt8
  | 0xEF :: 0xBB :: 0xBF :: rest => rest
  | octets => octets

/-- The source that a call submits; `none` if its body cannot be read at all. -/
def Call.submission? (c : Call) : Option (Checked Submission) :=
  if c.body.isEmpty then some (bodyFault .missing)
  else if !c.bringsJson then some (bodyFault .notBody)
  else
    match Utf8.decodeStrict (withoutMark c.body) with
    | .error _ => none
    | .ok t =>
      match Json.read t with
      | .error e => some (.failed [⟨[bodyStep, .index e.position], .notJson⟩])
      | .ok v => some ((Submission.ofJson v).under bodyStep)

end CodeAtlas.Http
