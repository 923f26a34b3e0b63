import CodeAtlas.CommandLine.Page
import CodeAtlas.Service.Written

/-!
# What a command line asks for

`plan` takes the words of a command line to what they ask for: a command with its options, the version,
a page of help, or nothing because they are a misuse. The words of a command are read against the
command's own options; what neither it nor the program knows is a misuse of the program.
-/

namespace CodeAtlas.CommandLine

/-- The options of the program. -/
inductive ProgramKey where
  | help
  | version

/-- The options of the command that visualizes. -/
inductive VisualizeKey where
  | help
  | language
  | format

/-- The options of the command that serves. -/
inductive ServeKey where
  | help
  | host
  | port

/-- An option with names. -/
def switch {κ : Type} (names : List String) (key : κ) (takesValue : Bool) : Switch κ :=
  ⟨names.map Text.ofString, key, takesValue⟩

/-- The options of the program. -/
def programTable : Table ProgramKey :=
  [switch ["-h", "--help"] .help false, switch ["--version"] .version false]

/-- The names of the option for the language. -/
def languageNames : List String := ["--language", "-l"]

/-- The names of the option for the format. -/
def formatNames : List String := ["--format", "-f"]

/-- The names of the option for the port. -/
def portNames : List String := ["--port"]

/-- The options of the command that visualizes. -/
def visualizeTable : Table VisualizeKey :=
  [switch ["-h", "--help"] .help false, switch languageNames .language true,
    switch formatNames .format true]

/-- The options of the command that serves. -/
def serveTable : Table ServeKey :=
  [switch ["-h", "--help"] .help false, switch ["--host"] .host true, switch portNames .port true]

/-- The names of the formats. -/
def formats : List String := ["json", "mermaid", "summary"]

/-- A command with its options. -/
inductive Command where
  /-- Visualizes a source that is named. -/
  | visualize (source language : Text) (format : Format)
  /-- Serves at an address, so far as it is given. -/
  | serve (host : Option Text) (port : Option Int)
  deriving DecidableEq

/-- What a command line asks for. -/
inductive Plan where
  | run (command : Command)
  | version
  | help (page : Page)
  | misuse (page : Page) (m : Misuse)
  deriving DecidableEq

/-- A word that is one of several. -/
def choose (page : Page) (names choices : List String) (value : Text) : Except Plan Text :=
  if choices.any (Text.ofString · = value) then .ok value
  else .error (.misuse page (.notOneOf (names.map Text.ofString) value choices))

/-- The options of the command that visualizes, so far as they have been read. -/
structure VisualizeDraft where
  source : Option Text
  language : Text
  format : Format
  strays : List Text

namespace VisualizeDraft

/-- Nothing has been read. -/
def start : VisualizeDraft := ⟨none, Request.defaultLanguage, .summary, []⟩

/-- Lets an event take effect. -/
def step (d : VisualizeDraft) : Event VisualizeKey → Except Plan VisualizeDraft
  | .option .help _ => .error (.help .visualize)
  | .option .language value =>
    (choose .visualize languageNames Request.languages (value.getD [])).map fun t ↦
      { d with language := t }
  | .option .format value =>
    (choose .visualize formatNames formats (value.getD [])).map fun t ↦
      { d with format := Format.ofName t }
  | .operand ws => .ok { d with source := ws.head? }
  | .stray w => .ok { d with strays := d.strays ++ [w] }
  | .misuse m => .error (.misuse .visualize m)

end VisualizeDraft

/-- The options of the command that serves, so far as they have been read. -/
structure ServeDraft where
  host : Option Text
  port : Option Int
  strays : List Text

namespace ServeDraft

/-- Nothing has been read. -/
def start : ServeDraft := ⟨none, none, []⟩

/-- Lets an event take effect. -/
def step (d : ServeDraft) : Event ServeKey → Except Plan ServeDraft
  | .option .help _ => .error (.help .serve)
  | .option .host value => .ok { d with host := value }
  | .option .port value =>
    match Text.integer? (value.getD []) with
    | some n => .ok { d with port := some n }
    | none =>
      .error (.misuse .serve (.notInteger (portNames.map Text.ofString) (value.getD [])))
  | .operand ws => .ok { d with strays := d.strays ++ ws }
  | .stray w => .ok { d with strays := d.strays ++ [w] }
  | .misuse m => .error (.misuse .serve m)

end ServeDraft

/-- The command that visualizes, and the words that it does not know. -/
def planVisualize (words : List Text) : Except Plan (Command × List Text) := do
  let d ← (events visualizeTable .one words).foldlM VisualizeDraft.step VisualizeDraft.start
  match d.source with
  | some s => return (.visualize s d.language d.format, d.strays)
  | none => throw (.misuse .visualize (.missing "source"))

/-- The command that serves, and the words that it does not know. -/
def planServe (words : List Text) : Except Plan (Command × List Text) := do
  let d ← (events serveTable .none words).foldlM ServeDraft.step ServeDraft.start
  return (.serve d.host d.port, d.strays)

/-- The commands by their names. -/
def commands : List (String × (List Text → Except Plan (Command × List Text))) :=
  [("visualize", planVisualize), ("serve", planServe)]

/-- What the program has read. -/
structure ProgramDraft where
  version : Bool
  command : Option (Command × List Text)
  strays : List Text

namespace ProgramDraft

/-- Nothing has been read. -/
def start : ProgramDraft := ⟨false, none, []⟩

/-- Lets an event take effect. -/
def step (d : ProgramDraft) : Event ProgramKey → Except Plan ProgramDraft
  | .option .help _ => .error (.help .program)
  | .option .version _ => .ok { d with version := true }
  | .operand [] => .ok d
  | .operand (name :: words) =>
    match commands.find? (fun c ↦ Text.ofString c.1 = name) with
    | some c => (c.2 words).map fun r ↦ { d with command := some r }
    | none =>
      .error (.misuse .program
        (.notOneOf [Text.ofString "command"] name (commands.map (·.1))))
  | .stray w => .ok { d with strays := d.strays ++ [w] }
  | .misuse m => .error (.misuse .program m)

/-- What the program is asked for after all events. -/
def finish (d : ProgramDraft) : Plan :=
  let strays := d.strays ++ (d.command.map (·.2)).getD []
  if strays ≠ [] then .misuse .program (.unrecognized strays)
  else if d.version then .version
  else match d.command with
    | some (c, _) => .run c
    | none => .help .program

end ProgramDraft

/-- What the words of a command line ask for. -/
def plan (words : List Text) : Plan :=
  match (events programTable .rest words).foldlM ProgramDraft.step ProgramDraft.start with
  | .ok d => d.finish
  | .error p => p

end CodeAtlas.CommandLine
