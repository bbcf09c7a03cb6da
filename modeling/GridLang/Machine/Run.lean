import GridLang.Machine

/-!
# GridLang.Machine.Run

**Whole runs**: stepping until a run is done or has failed.

Every run ends, since calls cannot be nested deeper than the depth limit. The measure is
`Machine.potential`: each program that is being executed counts the instructions it still has,
and one more for its return, with a weight that shrinks with its depth. Entering a program takes
one instruction from the caller, which outweighs all the instructions of the program one level
deeper; every other step takes something away and adds nothing.

* `potential_step_lt`: a step after which the run goes on lowers the potential.
* `Machine.finish` steps to the end from any state, `Machine.run` from the start of a program.
-/

namespace GridLang

namespace Script

/-- The length of the longest body. -/
def longestBody (s : Script) : Nat :=
  (s.programs.toList.map fun p => p.body.size).foldr max 0

theorem length_le_foldr_max {ns : List Nat} {n : Nat} (h : n ∈ ns) : n ≤ ns.foldr max 0 := by
  induction ns with
  | nil => simp at h
  | cons k ns ih =>
    rw [List.foldr_cons]
    rcases List.mem_cons.1 h with rfl | h
    · exact Nat.le_max_left _ _
    · exact Nat.le_trans (ih h) (Nat.le_max_right _ _)

theorem size_body_le {s : Script} {name : String} {p : Program} (h : s.find? name = some p) :
    p.body.size ≤ s.longestBody := by
  rw [find?_eq] at h
  exact length_le_foldr_max (List.mem_map.2 ⟨p, by simpa using Array.mem_of_find?_eq_some h, rfl⟩)

end Script

namespace Machine

/-! ## The potential -/

/-- The weight of a program that is being executed below a number of callers. -/
def weight (m : Machine) (depth : Nat) : Nat :=
  Nat.pow (m.script.longestBody + 2) (m.limits.maxDepth - depth)

/-- What is left of a program from a position on: its instructions, and its return. -/
def left (p : Program) (pc : Nat) : Nat := p.body.size - pc + 1

/-- The weight of what is left to the callers. -/
def framesPotential (m : Machine) : List Frame → Nat
  | [] => 0
  | f :: frames => left f.program f.pc * m.weight frames.length + m.framesPotential frames

/-- The weight of all that is left to do. -/
def potential (m : Machine) (s : State) : Nat :=
  left s.current s.pc * m.weight s.depth + m.framesPotential s.frames

theorem potential_eq (m : Machine) (s : State) :
    m.potential s =
      left s.current s.pc * m.weight s.frames.length + m.framesPotential s.frames := by
  rw [potential, State.depth_eq]

theorem weight_pos (m : Machine) (depth : Nat) : 0 < m.weight depth :=
  Nat.pow_pos (Nat.succ_pos _)

theorem weight_eq_of_lt {m : Machine} {depth : Nat} (h : depth < m.limits.maxDepth) :
    m.weight depth = m.weight (depth + 1) * (m.script.longestBody + 2) := by
  rw [weight, weight, show m.limits.maxDepth - depth = m.limits.maxDepth - (depth + 1) + 1 by omega]
  exact Nat.pow_succ _ _

theorem left_eq_of_lt {p : Program} {pc : Nat} (h : pc < p.body.size) :
    left p pc = left p (pc + 1) + 1 := by
  simp only [left]
  omega

theorem potential_advance_lt (m : Machine) {s : State} (h : s.pc < s.current.body.size) :
    m.potential s.advance < m.potential s := by
  have hw := m.weight_pos s.frames.length
  rw [potential_eq, potential_eq, left_eq_of_lt h, Nat.add_mul, Nat.one_mul, State.frames_advance]
  exact Nat.add_lt_add_right (Nat.lt_add_of_pos_right hw) _

theorem potential_enter_lt {m : Machine} {s : State} {name : String} {p : Program}
    (h : s.pc < s.current.body.size) (hd : s.depth < m.limits.maxDepth)
    (hp : m.script.find? name = some p) : m.potential (s.enter p) < m.potential s := by
  have hle : left p 0 ≤ m.script.longestBody + 1 := by
    have := Script.size_body_le hp
    simp only [left]
    omega
  rw [State.depth_eq] at hd
  have hw := m.weight_pos (s.frames.length + 1)
  -- One instruction of the caller weighs more than the whole program it calls.
  have hmul := Nat.mul_le_mul_right (m.weight (s.frames.length + 1)) hle
  have heq := weight_eq_of_lt hd
  rw [potential_eq, potential_eq, State.frames_enter, List.length_cons, framesPotential,
    left_eq_of_lt h]
  simp only [State.enter, Nat.add_mul, Nat.one_mul] at *
  rw [Nat.mul_comm, Nat.add_mul] at heq
  omega

theorem potential_call_lt {m : Machine} {s s' : State} {target : String}
    (h : s.pc < s.current.body.size) (hs : m.call s target = (.running, s')) :
    m.potential s' < m.potential s := by
  unfold call at hs
  split at hs
  · cases hs
  next p hp =>
    split at hs
    next hd => cases hs; exact potential_enter_lt h hd hp
    · cases hs

theorem potential_execute_lt {m : Machine} {s s' : State} {i : Instruction}
    (h : s.pc < s.current.body.size) (hs : m.execute s i = (.running, s')) :
    m.potential s' < m.potential s := by
  unfold execute at hs
  split at hs
  · cases hs
    exact m.potential_advance_lt (s := { s with grid := _ }) h
  · exact potential_call_lt h hs
  · split at hs
    · exact potential_call_lt h hs
    · cases hs
      exact m.potential_advance_lt h
    · cases hs

/-- A step after which the run goes on lowers the potential. -/
theorem potential_step_lt {m : Machine} {s s' : State} (hs : m.step s = (.running, s')) :
    m.potential s' < m.potential s := by
  unfold step at hs
  split at hs
  next i hi =>
    have h : s.pc < s.current.body.size := (Array.getElem?_eq_some_iff.1 hi).1
    split at hs
    · cases hs
    · exact potential_execute_lt (s := { s with steps := s.steps + 1 }) h hs
  · split at hs
    · cases hs
    next f callers hc =>
      cases hs
      -- The program that ended still counted its return.
      have hw := m.weight_pos s.frames.length
      have hl : 0 < left s.current s.pc * m.weight s.frames.length :=
        Nat.mul_pos (Nat.succ_pos _) hw
      have hf : s.frames = f :: callers.frames := Callers.pop?_eq_some_iff.1 hc
      rw [potential_eq, potential_eq, State.frames_resume]
      simp only [hf, framesPotential, State.resume] at *
      omega

/-! ## Running to the end -/

/-- How a run ends. -/
structure Outcome where
  /-- The error that stopped the run, if one did. -/
  error? : Option RunError
  /-- The grid at the end. -/
  grid : Grid
  deriving DecidableEq

/-- Steps from a state until the run is done or has failed. -/
def finish (m : Machine) (s : State) : Outcome :=
  match _h : m.step s with
  | (.running, s') => m.finish s'
  | (.done, s') => ⟨none, s'.grid⟩
  | (.failed e, s') => ⟨some e, s'.grid⟩
termination_by m.potential s
decreasing_by exact potential_step_lt _h

theorem finish_of_running {m : Machine} {s s' : State} (h : m.step s = (.running, s')) :
    m.finish s = m.finish s' := by
  rw [finish]
  split <;> simp_all

theorem finish_of_done {m : Machine} {s s' : State} (h : m.step s = (.done, s')) :
    m.finish s = ⟨none, s'.grid⟩ := by
  rw [finish]
  split <;> simp_all

theorem finish_of_failed {m : Machine} {s s' : State} {e : RunError}
    (h : m.step s = (.failed e, s')) : m.finish s = ⟨some e, s'.grid⟩ := by
  rw [finish]
  split <;> simp_all

/-- Runs a program over a grid. If it is not defined, the grid stays as it is. -/
def run (m : Machine) (name : String) (g : Grid) : Outcome :=
  match m.start name g with
  | .ok s => m.finish s
  | .error e => ⟨some e, g⟩

end Machine

end GridLang
