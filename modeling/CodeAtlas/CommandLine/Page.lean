import CodeAtlas.CommandLine.Options

/-!
# Usage and help

The command line has three pages: that of the program and those of its two commands. Each has a name,
the lines that say how to use it, and the lines that a misuse or a call for help prints.
-/

namespace CodeAtlas.CommandLine

/-- What usage and help are about. -/
inductive Page where
  | program
  | visualize
  | serve
  deriving DecidableEq

/-- The name of the program. -/
def programName : String := "lumina"

/-- The version of the program. -/
def version : String := "0.1.0"

/-- Lines with their ends. -/
def lines (ls : List String) : Text := ls.flatMap fun l ↦ Text.ofString l ++ [CodePoint.ofNat 0x0A]

namespace Page

/-- The name of a page. -/
def name : Page → String
  | program => programName
  | visualize => programName ++ " visualize"
  | serve => programName ++ " serve"

/-- How to use what a page is about. -/
def usageLines : Page → List String
  | program => ["usage: lumina [-h] [--version] \x7bvisualize,serve\x7d ..."]
  | visualize =>
    ["usage: lumina visualize [-h] [--language \x7bjavascript,typescript,python\x7d]",
      "                        [--format \x7bjson,mermaid,summary\x7d]",
      "                        source"]
  | serve => ["usage: lumina serve [-h] [--host HOST] [--port PORT]"]

/-- What help tells besides the usage. -/
def details : Page → List String
  | program =>
    ["",
      "Code structure visualizer: turns source text into call graphs and diagrams.",
      "",
      "positional arguments:",
      "  \x7bvisualize,serve\x7d",
      "    visualize        Visualize one source file",
      "    serve            Start the HTTP API",
      "",
      "options:",
      "  -h, --help         show this help message and exit",
      "  --version          Print version and exit"]
  | visualize =>
    ["",
      "positional arguments:",
      "  source                Path to a source file, or - for stdin",
      "",
      "options:",
      "  -h, --help            show this help message and exit",
      "  --language \x7bjavascript,typescript,python\x7d, -l \x7bjavascript,typescript,python\x7d",
      "                        Language tag (default: javascript)",
      "  --format \x7bjson,mermaid,summary\x7d, -f \x7bjson,mermaid,summary\x7d",
      "                        Output format (default: summary)"]
  | serve =>
    ["",
      "options:",
      "  -h, --help   show this help message and exit",
      "  --host HOST  Bind address (default: from settings)",
      "  --port PORT  Port (default: from settings)"]

/-- The usage of what a page is about. -/
def usage (p : Page) : Text := lines p.usageLines

/-- Help with what a page is about. -/
def help (p : Page) : Text := lines (p.usageLines ++ p.details)

/-- What a misuse prints. -/
def complaint (p : Page) (m : Misuse) : Text :=
  p.usage ++ Text.ofString p.name ++ Text.ofString ": error: " ++ m.message ++
    [CodePoint.ofNat 0x0A]

end Page

end CodeAtlas.CommandLine
