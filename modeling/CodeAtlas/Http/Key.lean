import CodeAtlas.Http.Message

/-!
# The key of the service

A service with a key replies only to calls that bring it, apart from the calls for its health and for
the pages about it. Keys are compared octet by octet, and only keys in ASCII can be compared. Main
statement: `admission_eq_passed`, without a key every call passes.
-/

namespace CodeAtlas.Http

/-- The paths that need no key. -/
def openPaths : List String := ["/api/health", "/api/docs", "/api/redoc", "/api/openapi.json"]

/-- What a path that needs no key may begin with. -/
def openStarts : List String := ["/api/health"]

/-- Whether a path needs no key. -/
def isOpen (path : Text) : Bool :=
  openPaths.any (Text.ofString · = path) || openStarts.any fun s ↦ path.startsWith (Text.ofString s)

/-- Whether a text is in ASCII. -/
def isAscii (t : Text) : Bool := t.all fun c ↦ c.val < 0x80

/-- What becomes of a call. -/
inductive Admission where
  | passed
  | refused
  /-- The keys cannot be compared. -/
  | broken
  deriving DecidableEq

/-- The key that a call brings. -/
def keyOf (c : Call) : Text := (c.header? "x-api-key").getD []

/-- Whether a call may pass. -/
def admission (key : Text) (c : Call) : Admission :=
  if isOpen c.path || key.isEmpty then .passed
  else if !isAscii (keyOf c) || !isAscii key then .broken
  else if keyOf c = key then .passed
  else .refused

/-- The reply to a call that is refused. -/
def unauthorized : Reply :=
  Reply.failure 401 "unauthorized" (Text.ofString "Invalid or missing API key")

/-- Without a key every call passes. -/
theorem admission_eq_passed (c : Call) : admission [] c = .passed := by simp [admission]

end CodeAtlas.Http
