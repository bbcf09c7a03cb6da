import Mathlib.Logic.Relation
import GridLang.Machine.Run

/-!
# GridLang.Proofs.Moves

**What a step can do, said once.** `Move` lists the seven things that can happen to a state, with
all that has to hold for each. Facts about all steps are proved by cases on it (`move_step`)
and never open `Machine.step`.

Two notions of a run stand on single steps:

* `Reaches`: the states that a run comes through while it goes on.
* `EndsAfter`: how many steps a run takes, and what the last of them comes to. Every run ends
  (`exists_endsAfter`), and `Machine.finish` answers what the last step came to
  (`EndsAfter.finish_eq`).
-/

namespace GridLang

/-- The program that an instruction calls over a grid, because it has no condition or because its
condition holds. -/
inductive Instruction.Calls (g : Grid) : Instruction → String → Prop
  | call (target : String) : Calls g (.call target) target
  | callIf {condition : Condition} (target : String) :
      condition.eval g = .ok true → Calls g (.callIf condition target) target

theorem Instruction.Calls.target?_eq {g : Grid} {i : Instruction} {target : String}
    (h : i.Calls g target) : i.target? = some target := by
  cases h <;> rfl

theorem Script.mem_of_find? {s : Script} {name : String} {p : Program}
    (h : s.find? name = some p) : p ∈ s.programs := by
  rw [find?_eq] at h
  exact Array.mem_of_find?_eq_some h

theorem Script.name_of_find? {s : Script} {name : String} {p : Program}
    (h : s.find? name = some p) : p.name = name := by
  rw [find?_eq] at h
  simpa using Array.find?_some h

namespace Machine

/-! ### What the moves are made of -/

/-- A state with one more instruction counted. -/
def State.count (s : State) : State := { s with steps := s.steps + 1 }

/-- A state with a cell of its grid set. -/
def State.write (s : State) (a : Address) (c : Cell) : State := { s with grid := s.grid.set a c }

/-- The programs that are open, the one being executed first, each with the position of its next
instruction. -/
def State.chain (s : State) : List Frame := ⟨s.current, s.pc⟩ :: s.frames

section

variable (s : State)

@[simp] theorem State.chain_advance : s.advance.chain = ⟨s.current, s.pc + 1⟩ :: s.frames := rfl

@[simp] theorem State.chain_enter (p : Program) :
    (s.enter p).chain = ⟨p, 0⟩ :: ⟨s.current, s.pc + 1⟩ :: s.frames := rfl

@[simp] theorem State.chain_resume (f : Frame) (callers : Callers) :
    (s.resume f callers).chain = f :: callers.frames := rfl

@[simp] theorem State.current_count : s.count.current = s.current := rfl

@[simp] theorem State.current_write (a : Address) (c : Cell) :
    (s.write a c).current = s.current := rfl

@[simp] theorem State.pc_count : s.count.pc = s.pc := rfl

@[simp] theorem State.pc_write (a : Address) (c : Cell) : (s.write a c).pc = s.pc := rfl

@[simp] theorem State.frames_count : s.count.frames = s.frames := rfl

@[simp] theorem State.frames_write (a : Address) (c : Cell) : (s.write a c).frames = s.frames := rfl

@[simp] theorem State.steps_count : s.count.steps = s.steps + 1 := rfl

@[simp] theorem State.steps_write (a : Address) (c : Cell) : (s.write a c).steps = s.steps := rfl

@[simp] theorem State.steps_advance : s.advance.steps = s.steps := rfl

@[simp] theorem State.steps_enter (p : Program) : (s.enter p).steps = s.steps := rfl

@[simp] theorem State.steps_resume (f : Frame) (callers : Callers) :
    (s.resume f callers).steps = s.steps := rfl

end

/-! ### The moves -/

/-- What can be wrong with the next instruction once it has been counted. -/
inductive Fault (m : Machine) (s : State) : Instruction → RunError → Prop
  | undefinedTarget {i : Instruction} {target : String} :
      i.Calls s.grid target → m.script.find? target = none →
      Fault m s i (.undefinedTarget s.current.name target)
  | depthExceeded {i : Instruction} {target : String} {p : Program} :
      i.Calls s.grid target → m.script.find? target = some p → m.limits.maxDepth ≤ s.depth →
      Fault m s i (.depthExceeded s.current.name m.limits.maxDepth)
  | notANumber {condition : Condition} {left right : Cell} (target : String) :
      condition.eval s.grid = .error (left, right) →
      Fault m s (.callIf condition target)
        (.notANumber s.current.name left condition.comparator right)

/-- What a step can come to, and when. -/
inductive Move (m : Machine) (s : State) : Status × State → Prop
  | finish : s.current.body[s.pc]? = none → s.frames = [] → Move m s (.done, s)
  | back {f : Frame} {callers : Callers} :
      s.current.body[s.pc]? = none → s.frames = f :: callers.frames →
      Move m s (.running, s.resume f callers)
  | spent {i : Instruction} {limit : Nat} :
      s.current.body[s.pc]? = some i → m.limits.maxSteps = some limit → limit ≤ s.steps →
      Move m s (.failed (.stepLimitExceeded s.current.name limit), s)
  | write {a : Address} {value : Operand} :
      s.current.body[s.pc]? = some (.write a value) → m.spent? s = none →
      Move m s (.running, (s.count.write a (value.value s.grid)).advance)
  | skip {condition : Condition} {target : String} :
      s.current.body[s.pc]? = some (.callIf condition target) → m.spent? s = none →
      condition.eval s.grid = .ok false → Move m s (.running, s.count.advance)
  | enter {i : Instruction} {target : String} {p : Program} :
      s.current.body[s.pc]? = some i → m.spent? s = none → i.Calls s.grid target →
      m.script.find? target = some p → s.depth < m.limits.maxDepth →
      Move m s (.running, s.count.enter p)
  | fail {i : Instruction} {e : RunError} :
      s.current.body[s.pc]? = some i → m.spent? s = none → m.Fault s i e →
      Move m s (.failed e, s.count)

section

variable {m : Machine} {s : State}

theorem spent?_eq_some_iff {limit : Nat} :
    m.spent? s = some limit ↔ m.limits.maxSteps = some limit ∧ limit ≤ s.steps := by
  simp [spent?, Option.filter_eq_some_iff]

theorem spent?_eq_none_iff :
    m.spent? s = none ↔ ∀ limit, m.limits.maxSteps = some limit → s.steps < limit := by
  simp [spent?, Option.filter_eq_none_iff]

theorem pc_lt_of_getElem? {i : Instruction} (h : s.current.body[s.pc]? = some i) :
    s.pc < s.current.body.size :=
  (Array.getElem?_eq_some_iff.1 h).1

theorem move_call {i : Instruction} {target : String} (hi : s.current.body[s.pc]? = some i)
    (hl : m.spent? s = none) (hc : i.Calls s.grid target) :
    m.Move s (m.call s.count target) := by
  unfold call
  cases hp : m.script.find? target with
  | none => exact .fail hi hl (.undefinedTarget hc hp)
  | some p =>
      by_cases hd : s.depth < m.limits.maxDepth
      · simp only [show s.count.depth = s.depth from rfl, hd, if_true]
        exact .enter hi hl hc hp hd
      · simp only [show s.count.depth = s.depth from rfl, hd, if_false]
        exact .fail hi hl (.depthExceeded hc hp (Nat.not_lt.1 hd))

theorem move_execute {i : Instruction} (hi : s.current.body[s.pc]? = some i)
    (hl : m.spent? s = none) : m.Move s (m.execute s.count i) := by
  cases i with
  | write a value => exact .write hi hl
  | call target => exact move_call hi hl (.call target)
  | callIf condition target =>
      rw [execute, show s.count.grid = s.grid from rfl]
      cases hc : condition.eval s.grid with
      | error operands => exact .fail hi hl (.notANumber target hc)
      | ok holds =>
          cases holds with
          | true => exact move_call hi hl (.callIf target hc)
          | false => exact .skip hi hl hc

/-- **Every step is one of the moves.** -/
theorem move_step (m : Machine) (s : State) : m.Move s (m.step s) := by
  cases hi : s.current.body[s.pc]? with
  | some i =>
      cases hl : m.spent? s with
      | some limit =>
          obtain ⟨hm, hle⟩ := spent?_eq_some_iff.1 hl
          rw [step_of_spent hi hl]
          exact .spent hi hm hle
      | none =>
          rw [step_of_instruction hi hl]
          exact move_execute hi hl
  | none =>
      cases hc : s.callers.pop? with
      | none =>
          rw [step_of_end hi hc]
          exact .finish hi (Callers.pop?_eq_none_iff.1 hc)
      | some popped =>
          obtain ⟨f, callers⟩ := popped
          rw [step_of_return hi hc]
          exact .back hi (Callers.pop?_eq_some_iff.1 hc)

theorem move_of_step {r : Status × State} (h : m.step s = r) : m.Move s r :=
  h ▸ m.move_step s

/-! ### The count of instructions -/

theorem steps_le_step (m : Machine) (s : State) : s.steps ≤ (m.step s).2.steps := by
  have h := m.move_step s
  generalize m.step s = r at h
  cases h with
  | finish | back | spent => exact Nat.le_refl _
  | write | skip | enter | fail => exact Nat.le_succ _

/-- A step that starts an instruction counts it. -/
theorem steps_step_of_instruction {i : Instruction} (hi : s.current.body[s.pc]? = some i)
    (hl : m.spent? s = none) : (m.step s).2.steps = s.steps + 1 := by
  have h := m.move_step s
  generalize m.step s = r at h
  cases h with
  | finish hnone | back hnone =>
      rw [hnone] at hi
      cases hi
  | spent _ hm hle =>
      exact absurd (spent?_eq_none_iff.1 hl _ hm) (Nat.not_lt.2 hle)
  | write | skip | enter | fail => rfl

/-- The grid is changed by counted instructions only. -/
theorem grid_step_of_steps_eq (h : (m.step s).2.steps = s.steps) : (m.step s).2.grid = s.grid := by
  have hm := m.move_step s
  generalize m.step s = r at h hm
  cases hm with
  | finish | back | spent => rfl
  | write | skip | enter | fail => exact absurd h (Nat.succ_ne_self _)

theorem steps_step_le {limit : Nat} (hm : m.limits.maxSteps = some limit) (h : s.steps ≤ limit) :
    (m.step s).2.steps ≤ limit := by
  have hmove := m.move_step s
  generalize m.step s = r at hmove
  cases hmove with
  | finish | back | spent => exact h
  | write _ hl | skip _ hl _ | enter _ hl _ _ _ | fail _ hl _ =>
      exact spent?_eq_none_iff.1 hl limit hm

end

theorem start_eq_ok_iff {m : Machine} {name : String} {g : Grid} {s : State} :
    m.start name g = .ok s ↔
      ∃ p, m.script.find? name = some p ∧ s = ⟨p, 0, .empty, g, 0⟩ := by
  unfold start
  cases m.script.find? name with
  | none => simp
  | some p => simp [eq_comm]

theorem start_of_find? {m : Machine} {name : String} {p : Program}
    (h : m.script.find? name = some p) (g : Grid) :
    m.start name g = .ok ⟨p, 0, .empty, g, 0⟩ := start_eq_ok_iff.2 ⟨p, h, rfl⟩

/-! ### The states of a run -/

/-- A run comes from one state to another while it goes on. -/
def Reaches (m : Machine) : State → State → Prop :=
  Relation.ReflTransGen fun s t => m.step s = (.running, t)

namespace Reaches

variable {m : Machine} {s t : State}

theorem steps_le (h : m.Reaches s t) : s.steps ≤ t.steps := by
  induction h with
  | refl => exact Nat.le_refl _
  | @tail t u _ hu ih =>
      have hle := m.steps_le_step t
      rw [hu] at hle
      exact Nat.le_trans ih hle

theorem steps_le_limit {limit : Nat} (h : m.Reaches s t) (hm : m.limits.maxSteps = some limit)
    (hs : s.steps ≤ limit) : t.steps ≤ limit := by
  induction h with
  | refl => exact hs
  | tail _ hu ih =>
      have hle := steps_step_le hm ih
      rwa [hu] at hle

/-- While no instruction is counted, the grid stays as it is. -/
theorem grid_eq (h : m.Reaches s t) (hs : t.steps = s.steps) : t.grid = s.grid := by
  induction h with
  | refl => rfl
  | @tail t u ht hu ih =>
      have hle := m.steps_le_step t
      have hgrid := @grid_step_of_steps_eq m t
      rw [hu] at hle hgrid
      have hst := steps_le ht
      have heq : u.steps = t.steps := Nat.le_antisymm (hs ▸ hst) hle
      rw [hgrid heq, ih (heq ▸ hs)]

/-- Of two states of one run, one comes before the other. -/
theorem total {t u : State} (ht : m.Reaches s t) (hu : m.Reaches s u) :
    m.Reaches t u ∨ m.Reaches u t := by
  refine Relation.ReflTransGen.total_of_right_unique ?_ ht hu
  -- A machine has one step to take.
  intro a b c hb hc
  cases hb.symm.trans hc
  rfl

/-- The grid of a run is determined by how many instructions have been executed. -/
theorem grid_eq_of_steps_eq {t u : State} (ht : m.Reaches s t) (hu : m.Reaches s u)
    (h : t.steps = u.steps) : t.grid = u.grid := by
  rcases ht.total hu with htu | hut
  · exact (htu.grid_eq h.symm).symm
  · exact hut.grid_eq h

end Reaches

/-! ### The end of a run -/

/-- A run from a state takes this many steps, and this is what the last of them comes to: the run
goes on after all the steps before it, and not after it. -/
inductive EndsAfter (m : Machine) : State → Nat → Status × State → Prop
  | last {s : State} : (m.step s).1 ≠ .running → EndsAfter m s 1 (m.step s)
  | next {s t : State} {n : Nat} {last : Status × State} : m.step s = (.running, t) →
      EndsAfter m t n last → EndsAfter m s (n + 1) last

/-- The error of a status, if it is one. -/
def Status.error? : Status → Option RunError
  | .running => none
  | .done => none
  | .failed e => some e

/-- A status with its error mapped. -/
def Status.map (f : RunError → RunError) : Status → Status
  | .running => .running
  | .done => .done
  | .failed e => .failed (f e)

theorem Status.map_id (status : Status) : status.map id = status := by
  cases status <;> rfl

theorem Status.map_eq_running_iff {f : RunError → RunError} {status : Status} :
    status.map f = .running ↔ status = .running := by
  cases status <;> simp [Status.map]

theorem Status.error?_map (f : RunError → RunError) (status : Status) :
    (status.map f).error? = status.error?.map f := by
  cases status <;> rfl

/-- The outcome of a run with this last step. -/
def Outcome.ofLast (last : Status × State) : Outcome := ⟨last.1.error?, last.2.grid⟩

theorem exists_endsAfter (m : Machine) (s : State) : ∃ n last, m.EndsAfter s n last := by
  -- The induction is on the recursion of `finish`, whose measure each step makes smaller.
  induction s using finish.induct m with
  | case1 s s' hs ih =>
      obtain ⟨n, last, h⟩ := ih
      exact ⟨n + 1, last, .next hs h⟩
  | case2 s s' hs => exact ⟨1, _, .last (by simp [hs])⟩
  | case3 s e s' hs => exact ⟨1, _, .last (by simp [hs])⟩

theorem finish_of_ne_running {m : Machine} {s : State} (h : (m.step s).1 ≠ .running) :
    m.finish s = .ofLast (m.step s) := by
  rcases hs : m.step s with ⟨_ | _ | e, t⟩
  · rw [hs] at h
    exact absurd rfl h
  · exact finish_of_done hs
  · exact finish_of_failed hs

theorem run_of_find?_eq_none {m : Machine} {name : String} (h : m.script.find? name = none)
    (g : Grid) : m.run name g = ⟨some (.undefinedStart name), g⟩ := by
  simp only [run, start, h]

theorem run_of_start {m : Machine} {name : String} {g : Grid} {s : State}
    (h : m.start name g = .ok s) : m.run name g = m.finish s := by
  rw [run, h]

namespace EndsAfter

variable {m : Machine} {s t : State} {n : Nat} {last : Status × State}

theorem finish_eq (h : m.EndsAfter s n last) : m.finish s = .ofLast last := by
  induction h with
  | last hne => exact finish_of_ne_running hne
  | next hs _ ih => rw [finish_of_running hs, ih]

/-- The same run, seen from a later state. -/
theorem of_reaches (h : m.EndsAfter s n last) (ht : m.Reaches s t) :
    ∃ k, m.EndsAfter t k last := by
  induction ht using Relation.ReflTransGen.head_induction_on generalizing n with
  | refl => exact ⟨n, h⟩
  | head hs _ ih =>
      cases h with
      | last hne =>
          rw [hs] at hne
          exact absurd rfl hne
      | next hs' hrest =>
          cases hs.symm.trans hs'
          exact ih hrest

/-- **The same run on another machine.** Let steps from states of some kind lead to states of that
kind, and let the other machine take each of these steps between the images of the states. Then its
run from the image of a state takes as many steps, and the last one comes to the image. -/
theorem map {m' : Machine} (h : m.EndsAfter s n last) (Kind : State → Prop) (f : State → State)
    (e : RunError → RunError) (keep : ∀ s, Kind s → Kind (m.step s).2)
    (same : ∀ s, Kind s → m'.step (f s) = ((m.step s).1.map e, f (m.step s).2)) (hs : Kind s) :
    m'.EndsAfter (f s) n (last.1.map e, f last.2) := by
  induction h with
  | @last s hne =>
      rw [← same s hs]
      refine .last ?_
      rw [same s hs]
      exact fun hrun => hne (Status.map_eq_running_iff.1 hrun)
  | @next s u n last hstep _ ih =>
      have hu := keep s hs
      have hstep' := same s hs
      rw [hstep] at hu hstep'
      exact .next hstep' (ih hu)

theorem steps_step_le_last (h : m.EndsAfter s n last) : (m.step s).2.steps ≤ last.2.steps := by
  induction h with
  | last hne => exact Nat.le_refl _
  | @next s t n last hs _ ih =>
      rw [hs]
      exact Nat.le_trans (m.steps_le_step t) ih

theorem steps_le {limit : Nat} (h : m.EndsAfter s n last) (hm : m.limits.maxSteps = some limit)
    (hs : s.steps ≤ limit) : last.2.steps ≤ limit := by
  induction h with
  | last hne => exact steps_step_le hm hs
  | @next s t n last hst _ ih =>
      have hle := steps_step_le hm hs
      rw [hst] at hle
      exact ih hle

end EndsAfter

end Machine

/-! ### A run that only limits end -/

/-- A program that writes a cell and calls itself. -/
def Program.loop : Program := ⟨"loop", #[.write ⟨1, 1⟩ (.number 7), .call "loop"]⟩

/-- The script of a program that never comes to its end. -/
def Script.endless : Script := Script.empty.push .loop (by simp [Script.empty])

theorem Machine.start_endless (limits : Limits) (g : Grid) :
    (Machine.mk .endless limits).start "loop" g = .ok ⟨.loop, 0, .empty, g, 0⟩ := by
  have hloop : Script.endless.find? "loop" = some .loop := by decide
  exact start_of_find? hloop g

end GridLang
