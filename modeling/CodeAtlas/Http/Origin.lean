import CodeAtlas.Http.Message
import CodeAtlas.Text.Blank

/-!
# Pages of other origins

A page that was not loaded from the service may read a reply if its origin is on a list. Before some
calls the page's browser asks whether the call is allowed; that question is answered here, whatever the
service would say to it. Main statements: `dress_status`, an origin does not change what is replied, and
`preflight?_of_verb`, only one verb asks whether a call is allowed.
-/

namespace CodeAtlas.Http

/-- The verbs that other pages may use. -/
def allowedVerbs : List String := ["GET", "POST", "OPTIONS"]

/-- The headers that other pages may send, in small letters. -/
def allowedHeaders : List String :=
  ["accept", "accept-language", "content-language", "content-type", "x-api-key"]

/-- Whether headers that are named with commas between them may all be sent. -/
def allowsHeaders (names : Text) : Bool :=
  (names.splitOn (CodePoint.ofNat 0x2C)).all fun (n : Text) ↦
    allowedHeaders.any (Text.ofString · = n.lower.trim)

/-- Whether a verb may be used. -/
def allowsVerb (verb : Text) : Bool := allowedVerbs.any (Text.ofString · = verb)

/-- What is not allowed of a call that is announced. -/
def objections (origins : List Text) (origin verb : Text) (headers : Option Text) : List String :=
  (if origins.contains origin then [] else ["origin"]) ++
  (if allowsVerb verb then [] else ["method"]) ++
  (if headers.all allowsHeaders then [] else ["headers"])

/-- The origin, if it is on the list. -/
def allowedOrigin? (origins : List Text) (origin : Text) : Option Text :=
  if origins.contains origin then some origin else none

/-- The reply to a call that is announced with its verb and its headers. -/
def preflight (origins : List Text) (origin verb : Text) (headers : Option Text) : Reply :=
  let reply := match objections origins origin verb headers with
    | [] => Reply.text 200 "OK"
    | os => Reply.text 400 ("Disallowed CORS " ++ ", ".intercalate os)
  { reply with origin := allowedOrigin? origins origin }

/-- The reply to a call that asks whether another one is allowed. -/
def preflight? (origins : List Text) (c : Call) : Option Reply :=
  if c.verb = Text.ofString "OPTIONS" then
    match c.header? "origin", c.header? "access-control-request-method" with
    | some origin, some verb =>
      some (preflight origins origin verb (c.header? "access-control-request-headers"))
    | _, _ => none
  else none

/-- A reply with the origin that may read it. -/
def dress (origins : List Text) (c : Call) (r : Reply) : Reply :=
  { r with origin := (c.header? "origin").bind (allowedOrigin? origins) }

/-- An origin does not change what is replied. -/
theorem dress_status (origins : List Text) (c : Call) (r : Reply) :
    (dress origins c r).status = r.status := rfl

/-- Only one verb asks whether a call is allowed. -/
theorem preflight?_of_verb {origins : List Text} {c : Call} (h : c.verb ≠ Text.ofString "OPTIONS") :
    preflight? origins c = none := if_neg h

end CodeAtlas.Http
