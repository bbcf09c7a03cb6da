import GridLang.CommandLine.Options
import GridLang.Grid.Layout
import GridLang.Machine.Run
import GridLang.Script.Reader
import GridLang.Text.Utf8

/-!
# GridLang.CommandLine.Report

**What an invocation of the command line comes to**: what it prints, and its exit code.

A program is read from a file or from standard input and run over a grid made from the cells
given. The grid at the end is printed as text, also if the run failed, since what was written
before the error stands; if there is nothing to run, nothing is printed. Errors go to standard
error: exit code 2 stands for arguments that cannot be followed, 1 for every other error.
-/

namespace GridLang.CommandLine

/-- Why a source cannot be had. -/
inductive SourceFault
  /-- There is no such file. -/
  | notFound
  /-- A part of the path is used as a directory and is none. -/
  | notADirectory
  /-- The path is a directory. -/
  | isADirectory
  /-- The path, or a part of it, is longer than the system takes. -/
  | nameTooLong
  /-- The file may not be read. -/
  | notPermitted
  /-- The contents are not UTF-8. -/
  | notUtf8
  /-- Anything else, in the words of the system. -/
  | other (message : String)
  deriving Repr, DecidableEq

/-- The wording of a fault. -/
def SourceFault.message : SourceFault → String
  | notFound => "No such file or directory (os error 2)"
  | notADirectory => "Not a directory (os error 20)"
  | isADirectory => "Is a directory (os error 21)"
  | nameTooLong => "File name too long (os error 36)"
  | notPermitted => "Permission denied (os error 13)"
  | notUtf8 => "stream did not contain valid UTF-8"
  | other message => message

/-- What an invocation comes to. -/
structure Report where
  /-- The exit code. -/
  code : UInt32
  /-- What is printed to standard output. -/
  output : String
  /-- What is printed to standard error. -/
  errors : String
  deriving Repr, DecidableEq

/-- The help text. -/
def helpText : String :=
  Text.unlines
    ["Run a micro-lang program",
      "",
      "Usage: micro-lang [OPTIONS] --start <START> [SOURCE]",
      "",
      "Arguments:",
      "  [SOURCE]  Source file; stdin if absent or \"-\"",
      "",
      "Options:",
      "  -s, --start <START>          Program to start with",
      "  -c, --cell <CELLS>           Initial memory, as ROW,COL=VALUE. May be repeated",
      "      --max-steps <MAX_STEPS>  Most instructions to execute before giving up",
      "  -h, --help                   Print help"]

namespace Report

/-- A failure before anything is run. -/
def failure (message : String) : Report := ⟨1, "", message ++ "\n"⟩

/-- The answer to arguments that ask for no run. -/
def ofStop : Stop → Report
  | .help => ⟨0, helpText, ""⟩
  | .misuse e => ⟨2, "", "error: " ++ e.message ++ "\n"⟩

/-- The answer to a run. -/
def ofOutcome (outcome : Machine.Outcome) : Report :=
  match outcome.error? with
  | none => ⟨0, outcome.grid.layout, ""⟩
  | some e => ⟨1, outcome.grid.layout, e.message ++ "\n"⟩

end Report

namespace Options

/-- The file that the source is in; none for standard input. -/
def file? (o : Options) : Option String := o.source?.filter (· ≠ "-")

/-- The bounds of the run. -/
def limits (o : Options) : Limits := { maxSteps := o.maxSteps?.map (·.toNat) }

/-- Runs a source text as the options say. -/
def execute (o : Options) (source : String) : Report :=
  match Script.read source with
  | .error e => .failure e.message
  | .ok script => .ofOutcome (Machine.run ⟨script, o.limits⟩ o.start (Grid.ofEntries o.seeds))

/-- Runs the octets of a source, or reports why there are none. -/
def executeOctets (o : Options) : Except SourceFault (List UInt8) → Report
  | .error fault => .failure fault.message
  | .ok octets =>
    match Utf8.decode? octets with
    | none => .failure SourceFault.notUtf8.message
    | some source => o.execute source

end Options

/-- Follows arguments. `load` gives the octets of a file, or of standard input; it is only asked
if the arguments can be followed. -/
def follow {m : Type → Type} [Monad m]
    (load : Option String → m (Except SourceFault (List UInt8))) (arguments : List String) :
    m Report :=
  match Options.ofArguments arguments with
  | .error stop => pure (.ofStop stop)
  | .ok options => return options.executeOctets (← load options.file?)

end GridLang.CommandLine
