import CodeAtlas.CommandLine.Files
import CodeAtlas.CommandLine.Plan
import CodeAtlas.Settings.Basic

/-!
# Running a command line

`run` takes the words of a command line and the surroundings of the program to a report: what is
printed, what is complained about, the number that the program exits with, and the address that it
serves at if it does. The surroundings are the environment, the files and the standard input.
-/

namespace CodeAtlas.CommandLine

/-- Where the program serves. -/
structure Address where
  host : Text
  port : Int
  /-- The level of the log, in small letters. -/
  level : Text
  deriving DecidableEq

/-- What a run leads to. -/
structure Report where
  exit : Nat
  output : Text
  complaint : Text
  address : Option Address
  deriving DecidableEq

namespace Report

/-- A run that ends well after printing something. -/
def printed (t : Text) : Report := ⟨0, t, [], none⟩

/-- A run that ends badly after complaining. -/
def failed (exit : Nat) (t : Text) : Report := ⟨exit, [], t, none⟩

/-- The number for a source with diagnostics. -/
def parseFailed : Nat := 1

/-- The number for a misuse, and for a source that cannot be read or is refused. -/
def badInput : Nat := 2

/-- The number for a stage that failed. -/
def defect : Nat := 3

end Report

/-- What surrounds a run. -/
structure Surroundings where
  environment : Members Text
  /-- The octets of the file of assignments, if there is one. -/
  assignments : Option (List UInt8)
  /-- Reads the file at a path. -/
  read : Path → Except FileFault (List UInt8)
  /-- The octets of the standard input. -/
  input : List UInt8
  stages : Stages

/-- Why a run breaks down without a report. -/
inductive Breakdown where
  | settings (issues : List Schema.Issue)
  /-- The file of assignments is no text. -/
  | assignments (m : Utf8.Malformed)
  | path (b : BadPath)
  | problem (p : Problem)

/-- The settings of a run. -/
def Surroundings.settings (s : Surroundings) : Except Breakdown Settings :=
  match Settings.sourcesOf s.environment s.assignments with
  | .error m => .error (.assignments m)
  | .ok sources =>
    match Settings.ofSources sources with
    | .passed settings => .ok settings
    | .failed issues => .error (.settings issues)

/-- The name that stands for the standard input. -/
def standardInput : Text := [dash]

/-- A line. -/
def line (t : Text) : Text := t ++ [CodePoint.ofNat 0x0A]

/-- The text that octets hold, with a line feed for every line end, or why they hold none. -/
def textOf (octets : List UInt8) : Except Text Text :=
  match Utf8.decodeStrict octets with
  | .ok t => .ok t.unifyLines
  | .error m => .error m.message

/-- The text of the source with a name, or why there is none. -/
def Surroundings.source (s : Surroundings) (name : Text) :
    Except Breakdown (Except Text Text) :=
  if name = standardInput then .ok (textOf s.input)
  else
    match BadPath.ofText? name with
    | some b => .error (.path b)
    | none =>
      let p := Path.ofText name
      match s.read p with
      | .ok octets => .ok (textOf octets)
      | .error f => .ok (.error (f.message p))

/-- The lines that show a diagnostic of the source with a name. -/
def diagnosticLines (name : Text) (d : Diagnostic) : Text :=
  line (name ++ Text.ofString ":" ++ Text.ofInt d.line ++ Text.ofString ":" ++ Text.ofInt d.column ++
    Text.ofString ": " ++ d.message) ++
  (if d.lineText = [] then [] else line (Text.ofString "    " ++ d.lineText)) ++
  line (Text.ofString "    hint: " ++ d.suggestion)

/-- Shows the answer of the service in a format. -/
def report (name : Text) (format : Format) (answer : Except Problem Outcome) :
    Except Breakdown Report :=
  match answer with
  | .error (.rejected message _) =>
    .ok (.failed Report.badInput (line (Text.ofString "Error: " ++ message)))
  | .error (.defect stage cause) =>
    .ok (.failed Report.defect
      (line (Text.ofString "Internal error: " ++ (Problem.defect stage cause).text)))
  | .error p => .error (.problem p)
  | .ok o =>
    if o.response.diagnostics ≠ [] then
      .ok (.failed Report.parseFailed (o.response.diagnostics.flatMap (diagnosticLines name)))
    else .ok (.printed (line ((format.print? o.response).getD [])))

/-- Visualizes the source with a name. -/
def runVisualize (s : Surroundings) (name language : Text) (format : Format) :
    Except Breakdown Report := do
  let settings ← s.settings
  match ← s.source name with
  | .error why =>
    return .failed Report.badInput
      (line (Text.ofString "Error: cannot read " ++ name ++ Text.ofString ": " ++ why))
  | .ok source =>
    let cache : Store := .empty settings.cacheCapacity settings.cacheCapacity_pos
    let request : Request := ⟨source, language, settings.room, settings.maxBytes⟩
    report name format (visualize s.stages request (some cache)).1

/-- The address to serve at: what is given and is neither empty nor zero, and the settings
otherwise. -/
def address (settings : Settings) (host : Option Text) (port : Option Int) : Address where
  host := if host.getD [] = [] then settings.host else host.getD []
  port := if port.getD 0 = 0 then settings.port else port.getD 0
  level := settings.level.lowerName

/-- Runs a command. -/
def runCommand (s : Surroundings) : Command → Except Breakdown Report
  | .visualize name language format => runVisualize s name language format
  | .serve host port => s.settings.map fun settings ↦ ⟨0, [], [], some (address settings host port)⟩

/-- Runs a command line. -/
def run (s : Surroundings) (words : List Text) : Except Breakdown Report :=
  match plan words with
  | .run c => runCommand s c
  | .version => .ok (.printed (lines [programName ++ " " ++ version]))
  | .help p => .ok (.printed p.help)
  | .misuse p m => .ok (.failed Report.badInput (p.complaint m))

end CodeAtlas.CommandLine
