import CodeAtlas.Text.Basic

/-!
# Routes

What a path leads to, and with which verbs. A path that leads nowhere but would without the slashes at
its end is redirected.
-/

namespace CodeAtlas.Http

/-- What a call can ask for. -/
inductive Route where
  | health
  | detailedHealth
  | visualize
  | clearCache
  /-- A page about the service. -/
  | page
  deriving DecidableEq

namespace Route

/-- The paths, and what they lead to. -/
def all : List (String × Route) :=
  [("/api/openapi.json", page), ("/api/docs", page), ("/api/docs/oauth2-redirect", page),
    ("/api/redoc", page), ("/api/health", health), ("/api/health/detailed", detailedHealth),
    ("/api/visualize", visualize), ("/api/cache/clear", clearCache)]

/-- The verbs that a route accepts. -/
def verbs : Route → List String
  | page => ["GET", "HEAD"]
  | health | detailedHealth => ["GET"]
  | visualize | clearCache => ["POST"]

/-- What a path leads to. -/
def ofPath? (path : Text) : Option Route :=
  (all.find? fun r ↦ Text.ofString r.1 = path).map (·.2)

end Route

/-- What a verb and a path lead to. -/
inductive Resolution where
  | found (r : Route)
  | wrongVerb
  | redirected
  | nowhere
  deriving DecidableEq

/-- A path without the slashes at its end. -/
def withoutSlashes (path : Text) : Text := (path.reverse.dropWhile (·.val == 0x2F)).reverse

/-- What a verb and a path lead to. -/
def resolve (verb path : Text) : Resolution :=
  match Route.ofPath? path with
  | some r => if r.verbs.any (Text.ofString · = verb) then .found r else .wrongVerb
  | none => if (Route.ofPath? (withoutSlashes path)).isSome then .redirected else .nowhere

end CodeAtlas.Http
