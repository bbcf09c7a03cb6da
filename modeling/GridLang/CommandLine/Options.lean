import GridLang.CommandLine.Seed
import GridLang.Text.Terminal

/-!
# GridLang.CommandLine.Options

**Reading the arguments** of the command line, one at a time.

* An argument that starts with `--` names an option, and so does the first character behind a
  single `-`. The value of an option is attached to it (`--start=P`, `-sP`, `-s=P`) or is the next
  argument. A value that is not attached cannot start with `-`, unless it is `-` itself.
* `--` ends the options. Every argument that is neither an option nor a value is the source, and
  there can be one.
* An option or a source that has been read is *pending* until the next argument that is not its
  value, or the end. Only then is it settled: its value has to be there, an option that takes
  effect once must not have been given before, and the value has to be valid. An argument that
  cannot be placed at all is reported first, whatever is pending.
* A request for help ends the reading as soon as it is met.
-/

namespace GridLang.CommandLine

/-- What takes a value. -/
inductive Slot
  /-- The source, which has no option. -/
  | source
  /-- The program to start with. -/
  | start
  /-- A cell of the first grid. -/
  | cell
  /-- The step limit. -/
  | maxSteps
  deriving Repr, DecidableEq

/-- How a slot is called in messages. -/
def Slot.label : Slot → String
  | source => "[SOURCE]"
  | start => "--start <START>"
  | cell => "--cell <CELLS>"
  | maxSteps => "--max-steps <MAX_STEPS>"

/-- What can be wrong with the arguments. -/
inductive UsageError
  /-- No start program is given. -/
  | missingStart
  /-- A value is missing. -/
  | missingValue (slot : Slot)
  /-- An argument has no place. -/
  | unexpectedArgument (argument : String)
  /-- A value is attached to an option that takes none. -/
  | unexpectedValue (value option : String)
  /-- An option is given twice that takes effect once. -/
  | repeated (slot : Slot)
  /-- A value is not what its option takes. -/
  | invalidValue (value : String) (slot : Slot) (reason : String)
  deriving Repr, DecidableEq

/-- The wording of an error. Of what was typed, only what a terminal shows is repeated. -/
def UsageError.message : UsageError → String
  | missingStart => "the following required arguments were not provided:"
  | missingValue slot => "a value is required for '" ++ slot.label ++ "' but none was supplied"
  | unexpectedArgument argument =>
    "unexpected argument '" ++ Terminal.visible argument ++ "' found"
  | unexpectedValue value option =>
    "unexpected value '" ++ Terminal.visible value ++ "' for '" ++ option ++
      "' found; no more were expected"
  | repeated slot => "the argument '" ++ slot.label ++ "' cannot be used multiple times"
  | invalidValue value slot reason =>
    "invalid value '" ++ Terminal.visible value ++ "' for '" ++ slot.label ++ "': " ++ reason

/-- Why the reading of the arguments stops. -/
inductive Stop
  /-- Help is asked for. -/
  | help
  /-- The arguments are not as they should be. -/
  | misuse (e : UsageError)
  deriving Repr, DecidableEq

/-- What the arguments ask for. -/
structure Options where
  /-- The path of the source, if one is given. -/
  source? : Option String
  /-- The program to start with. -/
  start : String
  /-- The cells of the first grid, in order of appearance. -/
  seeds : List (Address × Cell)
  /-- The step limit, if there is one. -/
  maxSteps? : Option UInt64
  deriving Repr, DecidableEq

/-- A slot that is still to be settled, with its value once that is there. -/
structure Pending where
  /-- The slot. -/
  slot : Slot
  /-- Its value. -/
  value? : Option String
  deriving Repr, DecidableEq

/-- The arguments read so far. -/
structure Draft where
  /-- The source. -/
  source? : Option String := none
  /-- The start program. -/
  start? : Option String := none
  /-- The cells, in order of appearance. -/
  seeds : List (Address × Cell) := []
  /-- The step limit. -/
  maxSteps? : Option UInt64 := none
  /-- What is still to be settled. -/
  pending? : Option Pending := none
  /-- Whether the options have ended. -/
  optionsEnded : Bool := false
  deriving Repr, DecidableEq

namespace Draft

/-- Settles a slot. The source is only ever given once. -/
def settle (d : Draft) (slot : Slot) (value : String) : Except Stop Draft :=
  match slot with
  | .source =>
    if value.isEmpty then .error (.misuse (.missingValue .source))
    else .ok { d with source? := some value }
  | .start =>
    if d.start?.isSome then .error (.misuse (.repeated .start))
    else .ok { d with start? := some value }
  | .cell =>
    match readSeed value with
    | .ok seed => .ok { d with seeds := d.seeds ++ [seed] }
    | .error fault => .error (.misuse (.invalidValue value .cell fault.message))
  | .maxSteps =>
    if d.maxSteps?.isSome then .error (.misuse (.repeated .maxSteps))
    else
      match Numeral.readUInt64 value.toList with
      | .ok n => .ok { d with maxSteps? := some n }
      | .error fault => .error (.misuse (.invalidValue value .maxSteps fault.message))

/-- Settles what is pending. -/
def settlePending (d : Draft) : Except Stop Draft :=
  match d.pending? with
  | none => .ok d
  | some ⟨slot, none⟩ => .error (.misuse (.missingValue slot))
  | some ⟨slot, some value⟩ => { d with pending? := none }.settle slot value

/-- Whether there is a source already, settled or not. -/
def hasSource (d : Draft) : Bool :=
  d.source?.isSome || d.pending?.any (·.slot = .source)

/-- Takes an argument that is neither an option nor the value of one. -/
def takeOperand (d : Draft) (argument : String) : Except Stop Draft :=
  if d.hasSource then .error (.misuse (.unexpectedArgument argument))
  else do
    let d ← d.settlePending
    return { d with pending? := some ⟨.source, some argument⟩ }

/-- Takes an option with the value attached to it, if one is. An attached value is settled at
once. -/
def takeOption (d : Draft) (slot : Slot) (attached? : Option String) : Except Stop Draft := do
  let d ← d.settlePending
  match attached? with
  | some value => d.settle slot value
  | none => return { d with pending? := some ⟨slot, none⟩ }

/-- Takes a request for help. -/
def takeHelp (d : Draft) : Except Stop Draft := do
  let _ ← d.settlePending
  throw .help

/-- Takes an option by its long name. -/
def takeLong (d : Draft) (option : List Char) : Except Stop Draft :=
  let (name, attached?) := match Text.cut '=' option with
    | some (name, value) => (String.ofList name, some (String.ofList value))
    | none => (String.ofList option, none)
  match name with
  | "start" => d.takeOption .start attached?
  | "cell" => d.takeOption .cell attached?
  | "max-steps" => d.takeOption .maxSteps attached?
  | "help" =>
    match attached? with
    | some value => .error (.misuse (.unexpectedValue value "--help"))
    | none => d.takeHelp
  | _ => .error (.misuse (.unexpectedArgument ("--" ++ name)))

/-- Takes an option by its letter. What follows the letter is its value, and one `=` in front of
the value does not count. -/
def takeShort (d : Draft) (letter : Char) (rest : List Char) : Except Stop Draft :=
  let attached? := match rest with
    | [] => none
    | '=' :: value => some (String.ofList value)
    | value => some (String.ofList value)
  match letter with
  | 's' => d.takeOption .start attached?
  | 'c' => d.takeOption .cell attached?
  | 'h' => d.takeHelp
  | _ => .error (.misuse (.unexpectedArgument (String.ofList ['-', letter])))

/-- Takes an argument that is no option: the value that is waited for, or else the source. -/
def takePlain (d : Draft) (argument : String) : Except Stop Draft :=
  match d.pending? with
  | some ⟨slot, none⟩ => .ok { d with pending? := some ⟨slot, some argument⟩ }
  | _ => d.takeOperand argument

/-- Takes the next argument. -/
def take (d : Draft) (argument : String) : Except Stop Draft :=
  if d.optionsEnded then d.takeOperand argument
  else
    match argument.toList with
    -- A single `-` is no option: it falls through to the last case.
    | ['-', '-'] => .ok { d with optionsEnded := true }
    | '-' :: '-' :: option => d.takeLong option
    | '-' :: letter :: rest => d.takeShort letter rest
    | _ => d.takePlain argument

/-- Takes the end of the arguments. -/
def finish (d : Draft) : Except Stop Options := do
  let d ← d.settlePending
  match d.start? with
  | some start => return ⟨d.source?, start, d.seeds, d.maxSteps?⟩
  | none => throw (.misuse .missingStart)

end Draft

/-- What arguments ask for, or why they cannot be followed. -/
def Options.ofArguments (arguments : List String) : Except Stop Options := do
  (← arguments.foldlM Draft.take {}).finish

end GridLang.CommandLine
