import CodeAtlas.CommandLine.Run
import CodeAtlas.Grammar.Tsx
import CodeAtlas.Parsing.Outline

/-!
# The program

The thin layer between the command line and the system: it gathers what a run needs, and prints what the
run leads to. What a name in the environment or a file holds is looked up here and nowhere else.
-/

section

open CodeAtlas CodeAtlas.CommandLine

/-- The variables of the environment that are settings. -/
def readEnvironment : IO (Members Text) := do
  let names := Settings.names.flatMap fun n ↦ [n, n.toUpper]
  let values ← names.mapM fun n ↦ do
    return (← IO.getEnv n).map fun v ↦ (Text.ofString n, Text.ofString v)
  return values.filterMap id

/-- The octets of the file at a path, or why it cannot be read. -/
def readFile (p : Path) : IO (Except FileFault (List UInt8)) := do
  try
    let octets ← IO.FS.readBinFile p.toText.toString
    return .ok octets.toList
  catch
    | .noFileOrDirectory .. => return .error .missing
    | .inappropriateType .. => return .error .isFolder
    | e => return .error (.other 5 (Text.ofString e.toString))

/-- The octets of the standard input. -/
def readInput : IO (List UInt8) := do
  return (← (← IO.getStdin).readBinToEnd).toList

/-- What surrounds the run of a command line. -/
def gather (words : List Text) : IO Surroundings := do
  let environment ← readEnvironment
  let assignments := (← readFile (Path.ofText Settings.fileName)).toOption
  let named := match plan words with
    | .run (.visualize name _ _) => some name
    | _ => none
  let input ← if named = some standardInput then readInput else pure []
  let file ← match named with
    | some name => if name = standardInput then pure (.error .missing) else readFile (Path.ofText name)
    | none => pure (.error .missing)
  let language := Parsing.Language.ofGrammar Grammar.Tsx.grammar
  return ⟨environment, assignments, fun _ ↦ file, input, ⟨.ofBuilder language.concrete, none, none⟩⟩

/-- Why a run broke down, in words. -/
def breakdownText : Breakdown → Text
  | .settings issues =>
    (Text.ofString "\n").intercalate (issues.map fun i ↦ i.fault.message)
  | .assignments m => m.message
  | .path b => b.message
  | .problem p => p.text

/-- Runs the program. -/
def main (args : List String) : IO UInt32 := do
  let words := args.map Text.ofString
  match run (← gather words) words with
  | .ok r =>
    IO.print r.output.toString
    IO.eprint r.complaint.toString
    match r.address with
    | some a => IO.eprintln (a.host ++ Text.ofString ":" ++ Text.ofInt a.port).toString
    | none => pure ()
    return r.exit.toUInt32
  | .error b =>
    IO.eprintln (breakdownText b).toString
    return 1

end
