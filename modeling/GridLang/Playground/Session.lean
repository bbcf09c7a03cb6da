import GridLang.Grid.Editor
import GridLang.Machine.Run
import GridLang.Script.Reader
import GridLang.Text.Lines

/-!
# GridLang.Playground.Session

**Sessions of the playground**: a source text in an editor, the program to start with, and a grid
that lasts from one run to the next.

A session changes only by two actions, and each of them comes with the fields of a submitted form.

* `Session.run` takes the editor fields, then the edited cells, then runs the start program over
  the grid. What the run wrote before an error stays.
* `Session.reset` takes the editor fields and puts the grid back to its first state. It leaves
  nothing of the grid before it, nor of what was last said.
-/

namespace GridLang.Playground

/-- Names and texts of form fields, in order of submission. -/
abbrev Fields := List (String × String)

/-- What is said about the last action. -/
inductive Notice
  /-- It did what it should. -/
  | success (message : String)
  /-- It could not. -/
  | failure (message : String)
  deriving Repr, DecidableEq

/-- What can be done to a session. -/
inductive Action
  /-- Runs the start program. -/
  | run
  /-- Puts the grid back to its first state. -/
  | reset
  deriving Repr, DecidableEq

/-- The state of a session. -/
structure Session where
  /-- The name that requests know it by. -/
  name : String
  /-- The source text in the editor. -/
  code : String
  /-- The program to start with. -/
  start : String
  /-- The grid. -/
  grid : Grid
  /-- What is said about the last action, if there was one. -/
  notice? : Option Notice
  deriving DecidableEq

namespace Session

/-- The source text of a new session. -/
def sampleCode : String :=
  Text.unlines
    ["; Bake a cake, if the baker is ready and the ingredients are there.",
      ";   [1,1] baker readiness (0 = not at all, 1 = somewhat, 2 = very)",
      ";   [2,1] sugar available",
      ";   [3,1] eggs available",
      "; The cake ends up in [5,1].",
      "",
      "program bake_cake",
      "    call-if [1,1] >= 1, check_sugar",
      "program-end",
      "",
      "program check_sugar",
      "    call-if [2,1] = 1, check_eggs",
      "program-end",
      "",
      "program check_eggs",
      "    call-if [3,1] = 1, bake",
      "program-end",
      "",
      "program bake",
      "    write [2,1] := 0",
      "    write [3,1] := 0",
      "    write [5,1] := \"cake\"",
      "program-end"]

/-- The start program of a new session. -/
def sampleStart : String := "bake_cake"

/-- The grid of a new session, and of one that has been reset. -/
def initialGrid : Grid :=
  Grid.ofEntries [(⟨1, 1⟩, .number 1), (⟨2, 1⟩, .number 1), (⟨3, 1⟩, .number 1)]

/-- A new session. -/
def new (name : String) : Session := ⟨name, sampleCode, sampleStart, initialGrid, none⟩

/-- Takes one editor field. Blanks around the name of the start program do not count. -/
def takeField (s : Session) (name text : String) : Session :=
  if name = "code" then { s with code := text }
  else if name = "start" then { s with start := Text.trim text }
  else s

/-- Takes the editor fields of a form in turn. -/
def takeEditor (s : Session) (fields : Fields) : Session :=
  fields.foldl (fun s (name, text) => s.takeField name text) s

/-- Takes the edited cells of a form. -/
def takeCells (s : Session) (fields : Fields) : Session :=
  { s with grid := s.grid.applyFields fields }

/-- Runs the start program: the grid at the end, and what stopped the run if something did. The
source text is read anew for each run. -/
def execute (s : Session) (limits : Limits) : Option String × Grid :=
  if (Text.trim s.code).isEmpty then (some "the code editor is empty", s.grid)
  else if s.start.isEmpty then (some "a start program is required", s.grid)
  else
    match Script.read s.code with
    | .error e => (some e.message, s.grid)
    | .ok script =>
      let outcome := Machine.run ⟨script, limits⟩ s.start s.grid
      (outcome.error?.map RunError.message, outcome.grid)

/-- Takes a form, then runs the start program. -/
def run (s : Session) (limits : Limits) (fields : Fields) : Session :=
  let s := (s.takeEditor fields).takeCells fields
  -- The message names the start program as it is after the form has been taken.
  let (failure?, grid) := s.execute limits
  let notice := match failure? with
    | some message => .failure message
    | none => .success ("program '" ++ s.start ++ "' ran successfully")
  { s with grid, notice? := some notice }

/-- Takes the editor fields of a form, then puts the grid back to its first state. -/
def reset (s : Session) (fields : Fields) : Session :=
  { s.takeEditor fields with
    grid := initialGrid
    notice? := some (.success "memory reset to its initial values") }

/-- Does an action, with the form submitted for it. -/
def act (s : Session) (limits : Limits) (action : Action) (fields : Fields) : Session :=
  match action with
  | .run => s.run limits fields
  | .reset => s.reset fields

@[simp] theorem takeEditor_nil (s : Session) : s.takeEditor [] = s := rfl

@[simp] theorem takeEditor_cons (s : Session) (name text : String) (fields : Fields) :
    s.takeEditor ((name, text) :: fields) = (s.takeField name text).takeEditor fields := rfl

end Session

end GridLang.Playground
