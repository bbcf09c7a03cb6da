import GridLang.Machine.Run

/-!
# GridLang.Proofs.Evaluation

**Evaluation of programs by recursion**, and its agreement with the machine.

The evaluator has no stack of callers: it goes through the instructions of a program in order, and
a call evaluates all of the program it names, one call deeper, before it goes on. Its main result
is `run_eq_evaluate`: a run of the machine ends as evaluation says, with the same grid, for every
script, limits, first program and grid.

The proof reads a state of the machine as what is left to evaluate: the rest of the current
program, then the rest of each caller in turn (`remaining`). A step of the machine changes the
state and not its reading (`remaining_of_running`), and where the machine stops the reading has
come to the same end. The count of instructions is a natural number in both, so no run is too long
to be compared.
-/

namespace GridLang.Machine

/-- What one instruction leaves to the next: the grid, and how many instructions were executed. -/
structure Store where
  grid : Grid
  steps : Nat
  deriving DecidableEq

/-- How evaluation ends: with an error and the grid at that time, or with a store. -/
abbrev Evaluated := Except (RunError × Grid) Store

namespace Store

/-- Counts an instruction of a program, unless the step limit is reached. -/
def count (st : Store) (limits : Limits) (p : Program) : Evaluated :=
  match limits.maxSteps with
  | none => .ok { st with steps := st.steps + 1 }
  | some limit =>
    if st.steps < limit then .ok { st with steps := st.steps + 1 }
    else .error (.stepLimitExceeded p.name limit, st.grid)

end Store

/-! ### The evaluator -/

mutual

/-- Evaluates instructions of `p` in order, where `depth` calls are open. -/
def evalBody (m : Machine) (p : Program) (depth : Nat) : List Instruction → Store → Evaluated
  | [], st => .ok st
  | i :: rest, st => do
    let st ← st.count m.limits p
    let st ← m.evalInstruction p depth i st
    m.evalBody p depth rest st
termination_by is => (m.limits.maxDepth - depth, is.length + 1)

/-- Evaluates one instruction of `p` that has been counted. -/
def evalInstruction (m : Machine) (p : Program) (depth : Nat) : Instruction → Store → Evaluated
  | .write a value, st => .ok { st with grid := st.grid.set a (value.value st.grid) }
  | .call target, st => m.evalCall p depth target st
  | .callIf condition target, st =>
    match condition.eval st.grid with
    | .ok true => m.evalCall p depth target st
    | .ok false => .ok st
    | .error (left, right) =>
      .error (.notANumber p.name left condition.comparator right, st.grid)
termination_by (m.limits.maxDepth - depth, 1)

/-- Evaluates all of a program that `p` calls, one call deeper. -/
def evalCall (m : Machine) (p : Program) (depth : Nat) (target : String) (st : Store) : Evaluated :=
  match m.script.find? target with
  | none => .error (.undefinedTarget p.name target, st.grid)
  | some callee =>
    if depth < m.limits.maxDepth then m.evalBody callee (depth + 1) callee.body.toList st
    else .error (.depthExceeded p.name m.limits.maxDepth, st.grid)
termination_by (m.limits.maxDepth - depth, 0)

end

/-- The outcome of a run that ends as evaluation did. -/
def Evaluated.outcome : Evaluated → Outcome
  | .ok st => ⟨none, st.grid⟩
  | .error (e, g) => ⟨some e, g⟩

/-- Evaluates a program over a grid. -/
def evaluate (m : Machine) (name : String) (g : Grid) : Outcome :=
  match m.script.find? name with
  | none => ⟨some (.undefinedStart name), g⟩
  | some p => (m.evalBody p 0 p.body.toList ⟨g, 0⟩).outcome

/-! ### The reading of a state -/

/-- Goes on with the callers that wait, the latest first. -/
def evalCallers (m : Machine) : List Frame → Evaluated → Evaluated
  | [], r => r
  | f :: frames, r =>
    m.evalCallers frames
      (r.bind (m.evalBody f.program frames.length (f.program.body.toList.drop f.pc)))

/-- The grid and the count of a state. -/
def State.store (s : State) : Store := ⟨s.grid, s.steps⟩

/-- What is left to evaluate in a state: the current program from its next instruction on, then
its callers. -/
def remaining (m : Machine) (s : State) : Evaluated :=
  m.evalCallers s.frames
    (m.evalBody s.current s.frames.length (s.current.body.toList.drop s.pc) s.store)

/-- An error passes all callers. -/
theorem evalCallers_error (m : Machine) (frames : List Frame) (e : RunError × Grid) :
    m.evalCallers frames (.error e) = .error e := by
  induction frames with
  | nil => rfl
  | cons f frames ih => exact ih

/-- The rest of a body, up to its next instruction. -/
theorem drop_pc_of_getElem? {p : Program} {pc : Nat} {i : Instruction} (h : p.body[pc]? = some i) :
    p.body.toList.drop pc = i :: p.body.toList.drop (pc + 1) := by
  obtain ⟨hlt, rfl⟩ := Array.getElem?_eq_some_iff.1 h
  exact List.drop_eq_getElem_cons (by simpa using hlt)

theorem drop_pc_of_getElem?_eq_none {p : Program} {pc : Nat} (h : p.body[pc]? = none) :
    p.body.toList.drop pc = [] :=
  List.drop_eq_nil_of_le (by simpa using h)

/-! ### One step -/

/-- The step limit stops the evaluator where it stops the machine. -/
theorem count_of_spent {m : Machine} {s : State} {limit : Nat} (h : m.spent? s = some limit) :
    s.store.count m.limits s.current =
      .error (.stepLimitExceeded s.current.name limit, s.grid) := by
  obtain ⟨hl, hle⟩ := Option.filter_eq_some_iff.1 h
  have hnot : ¬ s.steps < limit := Nat.not_lt.2 (by simpa using hle)
  simp [Store.count, State.store, hl, hnot]

theorem count_of_not_spent {m : Machine} {s : State} (h : m.spent? s = none) :
    s.store.count m.limits s.current = .ok { s with steps := s.steps + 1 }.store := by
  unfold Store.count
  cases hl : m.limits.maxSteps with
  | none => rfl
  | some limit =>
      have hlt : s.steps < limit := by
        simpa [spent?, hl, Option.filter_eq_none_iff] using h
      simp [State.store, hlt]

/-- What is left to evaluate at the end of the current program is left to its caller. -/
theorem remaining_resume {m : Machine} {s : State} {f : Frame} {callers : Callers}
    (h : s.current.body[s.pc]? = none) (hf : s.frames = f :: callers.frames) :
    m.remaining (s.resume f callers) = m.remaining s := by
  rw [remaining, remaining, hf, drop_pc_of_getElem?_eq_none h, evalBody, evalCallers]
  rfl

/-- What is left to evaluate once the next instruction of a state has come to `r`. -/
def remainingAfter (m : Machine) (s : State) (r : Evaluated) : Evaluated :=
  m.evalCallers s.frames
    (r.bind (m.evalBody s.current s.frames.length (s.current.body.toList.drop (s.pc + 1))))

theorem remainingAfter_error (m : Machine) (s : State) (e : RunError × Grid) :
    m.remainingAfter s (.error e) = .error e :=
  m.evalCallers_error s.frames e

theorem remaining_advance (m : Machine) (s : State) :
    m.remaining s.advance = m.remainingAfter s (.ok s.store) := rfl

/-- Entering a program turns the rest of its caller into the first of the callers that wait. -/
theorem remaining_enter (m : Machine) (s : State) (p : Program) :
    m.remaining (s.enter p) =
      m.remainingAfter s (m.evalBody p (s.frames.length + 1) p.body.toList s.store) := rfl

/-- What is left in a state whose next instruction is `i`: to evaluate `i`, and then the rest. -/
theorem remaining_of_instruction {m : Machine} {s : State} {i : Instruction}
    (h : s.current.body[s.pc]? = some i) :
    m.remaining s = m.remainingAfter s ((s.store.count m.limits s.current).bind
      (m.evalInstruction s.current s.frames.length i)) := by
  rw [remaining, remainingAfter, drop_pc_of_getElem? h, evalBody]
  cases s.store.count m.limits s.current <;> rfl

/-- What a step comes to, compared with what was left before it: the same is left while the run
goes on, and at its end it has come to the same. -/
def Agrees (m : Machine) (r : Evaluated) : Status × State → Prop
  | (.running, s) => m.remaining s = r
  | (.done, s) => r = .ok s.store
  | (.failed e, s) => r = .error (e, s.grid)

theorem agrees_call (m : Machine) (s : State) (target : String) :
    m.Agrees (m.remainingAfter s (m.evalCall s.current s.frames.length target s.store))
      (m.call s target) := by
  unfold call evalCall
  cases hp : m.script.find? target with
  | none => exact m.remainingAfter_error s _
  | some p =>
      rw [State.depth_eq]
      by_cases hd : s.frames.length < m.limits.maxDepth
      · simp only [hd, if_true]
        exact m.remaining_enter s p
      · simp only [hd, if_false]
        exact m.remainingAfter_error s _

theorem agrees_execute (m : Machine) (s : State) (i : Instruction) :
    m.Agrees (m.remainingAfter s (m.evalInstruction s.current s.frames.length i s.store))
      (m.execute s i) := by
  cases i with
  | write a value =>
      rw [evalInstruction]
      exact m.remaining_advance { s with grid := s.grid.set a (value.value s.grid) }
  | call target =>
      rw [evalInstruction]
      exact m.agrees_call s target
  | callIf condition target =>
      rw [evalInstruction, execute, show s.store.grid = s.grid from rfl]
      cases condition.eval s.grid with
      | error operands => exact m.remainingAfter_error s _
      | ok holds =>
          cases holds with
          | true => exact m.agrees_call s target
          | false => exact m.remaining_advance s

/-- **One step.** A step of the machine does not change what is left to evaluate. -/
theorem agrees_step (m : Machine) (s : State) : m.Agrees (m.remaining s) (m.step s) := by
  cases hi : s.current.body[s.pc]? with
  | some i =>
      rw [remaining_of_instruction hi]
      cases hl : m.spent? s with
      | some limit =>
          rw [step_of_spent hi hl, count_of_spent hl]
          exact m.remainingAfter_error s _
      | none =>
          rw [step_of_instruction hi hl, count_of_not_spent hl]
          exact m.agrees_execute { s with steps := s.steps + 1 } i
  | none =>
      cases hc : s.callers.pop? with
      | some popped =>
          obtain ⟨f, callers⟩ := popped
          rw [step_of_return hi hc]
          exact remaining_resume hi (Callers.pop?_eq_some_iff.1 hc)
      | none =>
          have hf : s.frames = [] := Callers.pop?_eq_none_iff.1 hc
          rw [step_of_end hi hc, remaining, hf, drop_pc_of_getElem?_eq_none hi, evalBody]
          rfl

/-! ### Whole runs -/

/-- Running to the end from any state comes to what was left to evaluate in it. -/
theorem finish_eq_outcome (m : Machine) (s : State) : m.finish s = (m.remaining s).outcome := by
  induction s using finish.induct m with
  | case1 s s' hs ih =>
      have h : m.Agrees (m.remaining s) (.running, s') := hs ▸ m.agrees_step s
      rw [finish_of_running hs, ih, show m.remaining s' = m.remaining s from h]
  | case2 s s' hs =>
      have h : m.Agrees (m.remaining s) (.done, s') := hs ▸ m.agrees_step s
      rw [finish_of_done hs, show m.remaining s = .ok s'.store from h]
      rfl
  | case3 s e s' hs =>
      have h : m.Agrees (m.remaining s) (.failed e, s') := hs ▸ m.agrees_step s
      rw [finish_of_failed hs, show m.remaining s = .error (e, s'.grid) from h]
      rfl

/-- **The machine agrees with evaluation by recursion**: for every script, limits, first program
and grid, a run has the outcome of evaluation, an error with all it says or none, and the grid. -/
theorem run_eq_evaluate (m : Machine) (name : String) (g : Grid) :
    m.run name g = m.evaluate name g := by
  unfold run start evaluate
  cases m.script.find? name with
  | none => rfl
  | some p => exact m.finish_eq_outcome ⟨p, 0, .empty, g, 0⟩

end GridLang.Machine
