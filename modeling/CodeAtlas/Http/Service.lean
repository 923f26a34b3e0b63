import CodeAtlas.Http.Body
import CodeAtlas.Http.Key
import CodeAtlas.Http.Origin
import CodeAtlas.Http.Route
import CodeAtlas.Logging.RequestLog
import CodeAtlas.Service.Written
import CodeAtlas.Settings.Basic

/-!
# The service

`App.handle` replies to a call and leaves the service behind as the call changed it. A question of
another page's browser is answered first; a call that may pass is then routed. What goes wrong with a
source that the client cannot help is logged, and the client learns no more than that it happened.
Main statements: `App.handle_of_refused`, a call that is refused changes nothing, and
`App.settings_handle`, no call changes the settings.
-/

namespace CodeAtlas.Http

open Json

/-- A running service. -/
structure App where
  settings : Settings
  /-- The origins that other pages may come from. -/
  origins : List Text
  cache : Store
  log : RequestLog

/-- What surrounds a call. -/
structure Surroundings where
  stages : Stages
  /-- Whether the grammar can be had. -/
  grammar : Bool
  /-- The time of the call. -/
  time : Text
  /-- The name of the call in the log. -/
  requestId : Text

/-- The version of the service. -/
def version : String := "0.1.0"

namespace App

/-- A service that has just been started. -/
def start (settings : Settings) (origins : List Text) : App where
  settings := settings
  origins := origins
  cache := .empty settings.cacheCapacity settings.cacheCapacity_pos
  log := RequestLog.closed.openIn settings.logFolder settings.level

/-- The reply to a call for the health of the service. -/
def healthReply (s : Surroundings) : Reply :=
  .json 200 (record [("status", str "healthy"), ("version", str version), ("timestamp", .text s.time)])

/-- The numbers of a cache. -/
def numbers (s : Cache.Stats) : List (String × Json) :=
  [("size", .int s.size), ("capacity", .int s.capacity), ("hits", .int s.hits),
    ("misses", .int s.misses), ("evictions", .int s.evictions)]

/-- The reply to a call for the health of the parts of the service. -/
def detailedHealthReply (s : Surroundings) (a : App) : Reply :=
  .json 200 (record [("status", str (if s.grammar then "healthy" else "degraded")),
    ("version", str version),
    ("components", record [
      ("grammar", record [("status", str (if s.grammar then "available" else "unavailable"))]),
      ("parse_cache", record (("status", str "available") :: numbers a.cache.stats))]),
    ("timestamp", .text s.time)])

/-- Drops what the cache holds. -/
def clearCache (a : App) : Reply × App :=
  let (dropped, cache) := a.cache.clear
  (.json 200 (record [("success", .bool true), ("data", record [("cleared", .int dropped)]),
    ("error", .null), ("metadata", record [])]), { a with cache })

/-- What is logged of an answer. -/
def requestRecord (s : Surroundings) (language : Text) (o : Outcome) : LogRecord :=
  .request ⟨s.requestId, o.digest, language, o.response.cached, .real o.response.millis,
    o.response.nodes.length, o.response.edges.length, o.response.diagnostics.length⟩

/-- The reply to a source that was not answered. -/
def problemReply (p : Problem) : Reply :=
  if p.classify = .client then .failure p.status "invalid_request" p.text
  else .failure p.status "analysis_failed" (Text.ofString "Failed to analyze code")

/-- What is logged of a source that was not answered. -/
def problemRecord? (s : Surroundings) (p : Problem) : Option LogRecord :=
  if p.classify = .client then none
  else some (.error ⟨s.requestId, Text.ofString "visualize", p.text⟩)

/-- Visualizes a source that is submitted. -/
def visualize (s : Surroundings) (a : App) (x : Submission) : Reply × App :=
  let request : Request := ⟨x.code, x.language, a.settings.room, a.settings.maxBytes⟩
  let (answer, cache?) := CodeAtlas.visualize s.stages request (some a.cache)
  let a := { a with cache := cache?.getD a.cache }
  match answer with
  | .error p =>
    (problemReply p, match problemRecord? s p with
      | some r => { a with log := a.log.log r }
      | none => a)
  | .ok o =>
    (.json 200 o.response.toJson, { a with log := a.log.log (requestRecord s x.language o) })

/-- Reads a submission and visualizes it. -/
def submit (s : Surroundings) (a : App) (c : Call) : Reply × App :=
  match c.submission? with
  | none => (.detail 400 "There was an error parsing the body", a)
  | some (.failed is) => (⟨422, .issues is, none⟩, a)
  | some (.passed x) => visualize s a x

/-- Takes a route. -/
def take (s : Surroundings) (a : App) (c : Call) : Route → Reply × App
  | .health => (healthReply s, a)
  | .detailedHealth => (detailedHealthReply s a, a)
  | .visualize => submit s a c
  | .clearCache => clearCache a
  | .page => (⟨200, .page, none⟩, a)

/-- Replies to a call that has passed. -/
def route (s : Surroundings) (a : App) (c : Call) : Reply × App :=
  match resolve c.verb c.path with
  | .found r => take s a c r
  | .wrongVerb => (.detail 405 "Method Not Allowed", a)
  | .redirected => (.text 307 "", a)
  | .nowhere => (.detail 404 "Not Found", a)

/-- Replies to a call. A breakdown is no reply that another page may read. -/
def handle (a : App) (s : Surroundings) (c : Call) : Reply × App :=
  match preflight? a.origins c with
  | some r => (r, a)
  | none =>
    match admission a.settings.apiKey c with
    | .broken => (.breakdown, a)
    | .refused => (dress a.origins c unauthorized, a)
    | .passed =>
      let (r, a') := route s a c
      (dress a.origins c r, a')

/-- Replies to several calls one after the other, and leaves the service behind. -/
def handleAll (a : App) : List (Surroundings × Call) → List Reply × App
  | [] => ([], a)
  | (s, c) :: rest =>
    let (r, a) := a.handle s c
    let (rs, a) := handleAll a rest
    (r :: rs, a)

/-- A call that is refused changes nothing. -/
theorem handle_of_refused {s : Surroundings} {a : App} {c : Call}
    (h : admission a.settings.apiKey c = .refused) : (a.handle s c).2 = a := by
  unfold handle
  split
  · rfl
  · rw [h]

/-- No call changes the settings. -/
theorem settings_handle (s : Surroundings) (a : App) (c : Call) :
    (a.handle s c).2.settings = a.settings := by
  have hv : ∀ x, (visualize s a x).2.settings = a.settings := by
    intro x
    simp only [visualize]
    split
    · split <;> rfl
    · rfl
  have hr : (route s a c).2.settings = a.settings := by
    unfold route
    split
    next r _ =>
      cases r with
      | visualize =>
        simp only [take, submit]
        split
        · rfl
        · rfl
        · exact hv _
      | _ => rfl
    all_goals rfl
  unfold handle
  split
  · rfl
  · split
    · rfl
    · rfl
    · exact hr

end App

end CodeAtlas.Http
