import GridLang.Grid
import GridLang.Machine.Callers
import GridLang.RunError
import GridLang.Script

/-!
# GridLang.Machine

**The machine that executes scripts**, one step at a time.

A machine is a script with the limits of its runs. The state of a run is the program being
executed with the position of its next instruction, the stack of callers waiting for it, the grid,
and the number of instructions executed so far. There is no instruction to return: a program ends
when its instructions do, and its caller goes on.

Design points:

* `Machine.step` is total on all states: it answers `done` or `failed` for ever once a run has
  come to that.
* The callers that wait are counted as they come and go (`Callers`), so that a call does not have
  to count them to compare their number with the depth limit.
* A step executes one instruction or returns from a program at its end. Only instructions count
  against the step limit, and they count as soon as they are started, also if they fail.
* The count of instructions is a natural number and does not overflow. A count of 64 bits is the
  same number in every run of fewer than 2^64 instructions; under a step limit of 64 bits every run
  is one, and without a step limit no step reads the count.
* Of several things that are wrong with one call, the first of this list is reported: the step
  limit, operands that are no numbers, a target that is not defined, the depth limit.
* A failing step leaves the state as it is, the count of instructions apart; what earlier
  instructions wrote to the grid stays.
-/

namespace GridLang

/-- The bounds of a run. -/
structure Limits where
  /-- How many calls may be open at a time. -/
  maxDepth : Nat := 1000
  /-- How many instructions may be executed, if that is bounded. -/
  maxSteps : Option Nat := none
  deriving Repr, DecidableEq

/-- A script and the bounds of its runs. -/
structure Machine where
  /-- The programs that can be called. -/
  script : Script
  /-- The bounds. -/
  limits : Limits := {}
  deriving DecidableEq

/-- The cell that an operand stands for. -/
def Operand.value (g : Grid) : Operand → Cell
  | number n => .number n
  | text s => .text s
  | cell a => g.read a

/-- Whether a condition holds; if one of its operands is no number, both cells. -/
def Condition.eval (g : Grid) (c : Condition) : Except (Cell × Cell) Bool :=
  match (c.left.value g).number?, (c.right.value g).number? with
  | some left, some right => .ok (c.comparator.holds left right)
  | _, _ => .error (c.left.value g, c.right.value g)

namespace Machine

/-- The state of a run. -/
structure State where
  /-- The program being executed. -/
  current : Program
  /-- The position of its next instruction. -/
  pc : Nat
  /-- The callers that wait. -/
  callers : Callers
  /-- The grid. -/
  grid : Grid
  /-- How many instructions have been executed, without bound. -/
  steps : Nat
  deriving DecidableEq

/-- The callers that wait, the latest first. -/
def State.frames (s : State) : List Frame := s.callers.frames

/-- How many calls are open. -/
def State.depth (s : State) : Nat := s.callers.depth

theorem State.depth_eq (s : State) : s.depth = s.frames.length := s.callers.depth_eq

/-- What a step comes to. -/
inductive Status
  /-- There may be more to do. -/
  | running
  /-- The first program has ended. -/
  | done
  /-- The run cannot go on. -/
  | failed (e : RunError)
  deriving Repr, DecidableEq

/-- The state before the first step of a run. -/
def start (m : Machine) (name : String) (g : Grid) : Except RunError State :=
  match m.script.find? name with
  | some p => .ok ⟨p, 0, .empty, g, 0⟩
  | none => .error (.undefinedStart name)

/-- The step limit, if a state has reached it. -/
def spent? (m : Machine) (s : State) : Option Nat :=
  m.limits.maxSteps.filter (· ≤ s.steps)

/-- Goes to the next instruction of the same program. -/
def State.advance (s : State) : State := { s with pc := s.pc + 1 }

/-- Goes to the first instruction of a program that is called. -/
def State.enter (s : State) (p : Program) : State :=
  { s with current := p, pc := 0, callers := s.callers.push ⟨s.current, s.pc + 1⟩ }

/-- Calls a program. -/
def call (m : Machine) (s : State) (target : String) : Status × State :=
  match m.script.find? target with
  | none => (.failed (.undefinedTarget s.current.name target), s)
  | some p =>
    if s.depth < m.limits.maxDepth then (.running, s.enter p)
    else (.failed (.depthExceeded s.current.name m.limits.maxDepth), s)

/-- Goes back to a caller, where others still wait. -/
def State.resume (s : State) (f : Frame) (callers : Callers) : State :=
  { s with current := f.program, pc := f.pc, callers }

/-- Executes one instruction. -/
def execute (m : Machine) (s : State) : Instruction → Status × State
  | .write a value => (.running, { s with grid := s.grid.set a (value.value s.grid) }.advance)
  | .call target => m.call s target
  | .callIf condition target =>
    match condition.eval s.grid with
    | .ok true => m.call s target
    | .ok false => (.running, s.advance)
    | .error (left, right) =>
      (.failed (.notANumber s.current.name left condition.comparator right), s)

/-- Executes the next instruction, or goes back to the caller at the end of a program. -/
def step (m : Machine) (s : State) : Status × State :=
  match s.current.body[s.pc]? with
  | some i =>
    match m.spent? s with
    | some limit => (.failed (.stepLimitExceeded s.current.name limit), s)
    | none => m.execute { s with steps := s.steps + 1 } i
  | none =>
    match s.callers.pop? with
    | none => (.done, s)
    | some (f, callers) => (.running, s.resume f callers)

/-! ## The callers behind a state -/

@[simp] theorem State.frames_advance (s : State) : s.advance.frames = s.frames := rfl

@[simp] theorem State.frames_enter (s : State) (p : Program) :
    (s.enter p).frames = ⟨s.current, s.pc + 1⟩ :: s.frames := rfl

@[simp] theorem State.frames_resume (s : State) (f : Frame) (callers : Callers) :
    (s.resume f callers).frames = callers.frames := rfl

/-! ## The cases of a step -/

/-- At the end of the first program, the run is done. -/
theorem step_of_end {m : Machine} {s : State} (h : s.current.body[s.pc]? = none)
    (hc : s.callers.pop? = none) : m.step s = (.done, s) := by
  simp only [step, h, hc]

/-- At the end of a program that was called, its caller goes on. -/
theorem step_of_return {m : Machine} {s : State} {f : Frame} {callers : Callers}
    (h : s.current.body[s.pc]? = none) (hc : s.callers.pop? = some (f, callers)) :
    m.step s = (.running, s.resume f callers) := by
  simp only [step, h, hc]

/-- An instruction is not started once the step limit is reached. -/
theorem step_of_spent {m : Machine} {s : State} {i : Instruction} {limit : Nat}
    (h : s.current.body[s.pc]? = some i) (hl : m.spent? s = some limit) :
    m.step s = (.failed (.stepLimitExceeded s.current.name limit), s) := by
  simp only [step, h, hl]

/-- Below the step limit an instruction is counted and executed. -/
theorem step_of_instruction {m : Machine} {s : State} {i : Instruction}
    (h : s.current.body[s.pc]? = some i) (hl : m.spent? s = none) :
    m.step s = m.execute { s with steps := s.steps + 1 } i := by
  simp only [step, h, hl]

/-! ## Many steps -/

/-- Takes a number of steps, and gives what the last of them came to. -/
def steps (m : Machine) : Nat → Status × State → Status × State
  | 0, last => last
  | n + 1, (_, s) => m.steps n (m.step s)

@[simp] theorem steps_zero (m : Machine) (last : Status × State) : m.steps 0 last = last := rfl

@[simp] theorem steps_succ (m : Machine) (n : Nat) (last : Status × State) :
    m.steps (n + 1) last = m.steps n (m.step last.2) := rfl

theorem steps_add (m : Machine) (k n : Nat) (last : Status × State) :
    m.steps (k + n) last = m.steps n (m.steps k last) := by
  induction k generalizing last with
  | zero => rw [Nat.zero_add, steps_zero]
  | succ k ih => rw [Nat.succ_add, steps_succ, steps_succ, ih]

end Machine

end GridLang
