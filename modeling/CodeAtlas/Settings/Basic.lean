import CodeAtlas.Logging.Level
import CodeAtlas.Schema
import CodeAtlas.Settings.DotEnv
import CodeAtlas.Text.Newline
import CodeAtlas.Text.Path
import CodeAtlas.Text.Quoted
import CodeAtlas.Text.Utf8

/-!
# Settings

A setting is taken from the first source that has it: what the caller gives, the environment, a file
of assignments, the default. The names of the environment and of the file are matched whatever the
case of their letters. All settings are checked, and every issue is reported.
-/

namespace CodeAtlas

open Schema

/-- The settings of the program. -/
structure Settings where
  level : Level
  debug : Bool
  logFolder : Path
  /-- How many inventories the cache holds. -/
  cacheCapacity : Nat
  cacheCapacity_pos : 0 < cacheCapacity
  /-- How many entities a flowchart shows. -/
  room : Int
  maxBytes : Int
  /-- The key that requests have to bring; if it is empty, none is asked for. -/
  apiKey : Text
  /-- The origins that other pages may come from, with commas between them. -/
  origins : Text
  host : Text
  port : Int
  deriving DecidableEq

namespace Settings

/-- Where settings come from. -/
structure Sources where
  given : Members Json
  environment : Members Text
  /-- The assignments of a file; a name without a value counts as not assigned. -/
  file : Members (Option Text)

namespace Sources

/-- No source but the defaults. -/
def none : Sources := ⟨[], [], []⟩

/-- The entry that came last of those whose names differ from a name by case alone. -/
def lastNamed? {α : Type} (name : Text) (entries : Members α) : Option α :=
  (entries.reverse.find? fun e ↦ e.1.lower = name).map (·.2)

/-- The value of a setting in the first source that has it. -/
def value? (s : Sources) (name : Text) : Option Json :=
  match s.given.get? name with
  | some v => some v
  | .none =>
    match lastNamed? name s.environment with
    | some t => some (.text t)
    | .none => (lastNamed? name s.file).bind fun v ↦ v.map .text

/-- The values of some settings, so far as sources have them. -/
def values (s : Sources) (names : List String) : Members Json :=
  names.filterMap fun n ↦ (s.value? (Text.ofString n)).map fun v ↦ (Text.ofString n, v)

end Sources

/-- The names of the settings. -/
def names : List String :=
  ["log_level", "debug_mode", "log_dir", "parse_cache_capacity", "diagram_max_entities",
    "max_source_bytes", "api_key", "cors_origins", "host", "port"]

/-- A level, by its name. -/
def levelNamed : Checker Level := fun v ↦
  (text v).andThen fun t ↦
    match Level.ofText? t with
    | some l => .passed l
    | none => .fault (.refused (Text.ofString "unknown log level: " ++ t.quoted))

/-- A path. -/
def pathNamed : Checker Path
  | .text t => .passed (Path.ofText t)
  | _ => .fault .notPath

/-- An integer that is at least one. -/
def positive (what : String) : Checker { n : Nat // 0 < n } := fun v ↦
  (integer v).andThen fun n ↦
    if h : 0 < n.toNat then .passed ⟨n.toNat, h⟩
    else .fault (.refused (Text.ofString what ++ Text.ofString "must be at least 1"))

/-- The settings that the sources give. -/
def ofSources (s : Sources) : Checked Settings :=
  let ms := s.values names
  (fun level debug logFolder capacity room maxBytes apiKey origins host port ↦
    { level, debug, logFolder, cacheCapacity := capacity.1, cacheCapacity_pos := capacity.2
      room := (room : { n : Nat // 0 < n }).1, maxBytes := (maxBytes : { n : Nat // 0 < n }).1
      apiKey, origins, host, port }) <$>
    member ["log_level"] (some .info) levelNamed ms <*>
    member ["debug_mode"] (some false) flag ms <*>
    member ["log_dir"] (some (Path.ofText (Text.ofString "logs"))) pathNamed ms <*>
    member ["parse_cache_capacity"] (some ⟨50, by decide⟩) (positive "") ms <*>
    member ["diagram_max_entities"] (some ⟨50, by decide⟩) (positive "") ms <*>
    member ["max_source_bytes"] (some ⟨10485760, by decide⟩) (positive "max_source_bytes ") ms <*>
    member ["api_key"] (some []) text ms <*>
    member ["cors_origins"] (some (Text.ofString "http://localhost:5173")) text ms <*>
    member ["host"] (some (Text.ofString "127.0.0.1")) text ms <*>
    member ["port"] (some 3001) integer ms

/-- The origins that other pages may come from. -/
def originList (s : Settings) : List Text :=
  ((s.origins.splitOn (CodePoint.ofNat 0x2C)).map Text.trim).filter (· ≠ [])

/-- The name of the file of assignments. -/
def fileName : Text := Text.ofString ".env"

/-- The sources of a program that runs in an environment, with the octets of its file of assignments
if it has one. -/
def sourcesOf (environment : Members Text) (file : Option (List UInt8)) :
    Except Utf8.Malformed Sources :=
  match file with
  | none => .ok ⟨[], environment, []⟩
  | some octets =>
    (Utf8.decodeStrict octets).map fun t ↦
      ⟨[], environment, DotEnv.read environment t.unifyLines⟩

end Settings

end CodeAtlas
