import Mathlib.Algebra.Ring.GeomSum
import GridLang.Proofs.Moves

/-!
# GridLang.Proofs.RunLength

**How long runs can get.** Two bounds, both from what a single step uses up:

* Of programs with at most `B` instructions, a run under the depth limit `D` executes at most
  `B + B ^ 2 + ... + B ^ (D + 1)` instructions, however they call each other. An instruction that
  may still open `n` levels of calls stands for `B ^ 0 + ... + B ^ n` instructions (`weightOf`), and
  a chain of open programs for those of all instructions that are left in it (`workload`). A step
  that counts an instruction takes at least one away (`steps_add_workload_le`). The measure with
  which `Machine.finish` ends counts returns as well, so it is too coarse for this bound.
* Under the step limit `L`, a run takes at most `2 * L + 1` steps. Returns are not counted, but each
  of them closes a call that was (`depth_add_le`).
-/

namespace GridLang.Machine

/-! ### The instructions that are left -/

/-- The instructions that one instruction can stand for, itself included, if bodies have at most
`B` instructions and it may open this many levels of calls. -/
def weightOf (B levels : Nat) : Nat := ∑ i ∈ Finset.range (levels + 1), B ^ i

/-- The instructions that are left in a chain of open programs. -/
def workload (m : Machine) (B : Nat) : List Frame → Nat
  | [] => 0
  | f :: frames =>
    (f.program.body.size - f.pc) * weightOf B (m.limits.maxDepth - frames.length) +
      m.workload B frames

theorem workload_cons (m : Machine) (B : Nat) (p : Program) (pc : Nat) (frames : List Frame) :
    m.workload B (⟨p, pc⟩ :: frames) =
      (p.body.size - pc) * weightOf B (m.limits.maxDepth - frames.length) +
        m.workload B frames := rfl

theorem weightOf_succ (B levels : Nat) : weightOf B (levels + 1) = B * weightOf B levels + 1 :=
  geom_sum_succ

theorem weightOf_pos (B levels : Nat) : 0 < weightOf B levels := by
  cases levels with
  | zero => simp [weightOf]
  | succ n =>
      rw [weightOf_succ]
      exact Nat.succ_pos _

theorem mul_weightOf (B levels : Nat) :
    B * weightOf B levels = ∑ i ∈ Finset.range (levels + 1), B ^ (i + 1) := by
  simp [weightOf, Finset.mul_sum, pow_succ']

section

variable {m : Machine} {B : Nat} {s t : State}

theorem workload_chain_of_lt (h : s.pc < s.current.body.size) :
    m.workload B s.chain =
      weightOf B (m.limits.maxDepth - s.frames.length) +
        m.workload B (⟨s.current, s.pc + 1⟩ :: s.frames) := by
  have hleft : s.current.body.size - s.pc = s.current.body.size - (s.pc + 1) + 1 := by omega
  rw [State.chain, workload_cons, workload_cons, hleft, Nat.add_mul, Nat.one_mul]
  omega

theorem workload_advance_lt (h : s.pc < s.current.body.size) :
    m.workload B (⟨s.current, s.pc + 1⟩ :: s.frames) < m.workload B s.chain := by
  have hpos := weightOf_pos B (m.limits.maxDepth - s.frames.length)
  rw [workload_chain_of_lt h]
  omega

/-- A call stands for itself and for all of the program that it enters. -/
theorem workload_enter_lt {p : Program} (h : s.pc < s.current.body.size)
    (hd : s.depth < m.limits.maxDepth) (hp : p.body.size ≤ B) :
    m.workload B (⟨p, 0⟩ :: ⟨s.current, s.pc + 1⟩ :: s.frames) < m.workload B s.chain := by
  rw [State.depth_eq] at hd
  have hlevels : m.limits.maxDepth - s.frames.length =
      m.limits.maxDepth - (s.frames.length + 1) + 1 := by omega
  have hbody := Nat.mul_le_mul_right (weightOf B (m.limits.maxDepth - (s.frames.length + 1))) hp
  rw [workload_chain_of_lt h, hlevels, weightOf_succ, workload_cons, List.length_cons, Nat.sub_zero]
  omega

/-- **One step.** A step after which the run goes on takes at least as many instructions off the
workload as it counts. -/
theorem steps_add_workload_le (hB : ∀ p ∈ m.script.programs, p.body.size ≤ B)
    (hs : m.step s = (.running, t)) :
    t.steps + m.workload B t.chain ≤ s.steps + m.workload B s.chain := by
  cases move_of_step hs with
  | back _ hf =>
      -- Whatever the program that ends had left drops out.
      have hle : m.workload B s.frames ≤ m.workload B s.chain := Nat.le_add_left _ _
      rw [State.steps_resume, State.chain_resume, ← hf]
      exact Nat.add_le_add_left hle _
  | write hi _ | skip hi _ _ =>
      have hlt := workload_advance_lt (m := m) (B := B) (pc_lt_of_getElem? hi)
      simp only [State.steps_advance, State.steps_write, State.steps_count, State.chain_advance,
        State.current_write, State.current_count, State.pc_write, State.pc_count,
        State.frames_write, State.frames_count]
      omega
  | enter hi _ _ hp hd =>
      have hlt := workload_enter_lt (pc_lt_of_getElem? hi) hd (hB _ (Script.mem_of_find? hp))
      simp only [State.steps_enter, State.steps_count, State.chain_enter, State.current_count,
        State.pc_count, State.frames_count]
      omega

/-- Whatever a step comes to, the workload covers what it counts. -/
theorem steps_step_le_workload (m : Machine) (B : Nat) (s : State) :
    (m.step s).2.steps ≤ s.steps + m.workload B s.chain := by
  have hmove := m.move_step s
  generalize m.step s = r at hmove
  cases hmove with
  | finish | back | spent => exact Nat.le_add_right _ _
  | write hi | skip hi | enter hi | fail hi =>
      have hlt := workload_advance_lt (m := m) (B := B) (pc_lt_of_getElem? hi)
      exact Nat.add_le_add_left (Nat.one_le_of_lt hlt) _

/-- **A whole run** executes at most the workload of the state it starts from. -/
theorem EndsAfter.steps_le_workload {n : Nat} {last : Status × State}
    (hB : ∀ p ∈ m.script.programs, p.body.size ≤ B) (h : m.EndsAfter s n last) :
    last.2.steps ≤ s.steps + m.workload B s.chain := by
  induction h with
  | last hne => exact m.steps_step_le_workload B _
  | next hs _ ih => exact Nat.le_trans ih (steps_add_workload_le hB hs)

/-! ### Counted and uncounted steps -/

/-- **One step.** A step is paid for by the instruction that it counts, or by the call that it
closes: an instruction that opens a call pays for the return as well. -/
theorem depth_add_le (hs : m.step s = (.running, t)) :
    t.depth + 1 + 2 * s.steps ≤ s.depth + 2 * t.steps := by
  simp only [State.depth_eq]
  cases move_of_step hs with
  | back _ hf => simp [hf]
  | write | skip =>
      simp only [State.steps_advance, State.steps_write, State.steps_count, State.frames_advance,
        State.frames_write, State.frames_count]
      omega
  | enter =>
      simp only [State.steps_enter, State.steps_count, State.frames_enter, State.frames_count,
        List.length_cons]
      omega

/-- **A whole run** under a step limit. -/
theorem EndsAfter.length_le {n limit : Nat} {last : Status × State} (h : m.EndsAfter s n last)
    (hm : m.limits.maxSteps = some limit) (hs : s.steps ≤ limit) :
    n + 2 * s.steps ≤ 2 * limit + s.depth + 1 := by
  induction h with
  | last hne => omega
  | @next s t n last hst _ ih =>
      have hle := steps_step_le hm hs
      rw [hst] at hle
      have hrest := ih hle
      have hpaid := depth_add_le hst
      omega

end

/-! ### From the start -/

/-- **Every run ends, within bounds.** From the start of a defined program, a run comes to an end
after some number of steps, whatever the limits are and however programs call each other. If bodies
have at most `B` instructions, it executes at most `B + B ^ 2 + ... + B ^ (D + 1)` of them under the
depth limit `D`; under the step limit `L` it takes at most `2 * L + 1` steps. -/
theorem exists_endsAfter_within (m : Machine) {name : String} {g : Grid} {s : State}
    (h : m.start name g = .ok s) :
    ∃ n last, m.EndsAfter s n last ∧
      (∀ B, (∀ p ∈ m.script.programs, p.body.size ≤ B) →
        last.2.steps ≤ ∑ i ∈ Finset.range (m.limits.maxDepth + 1), B ^ (i + 1)) ∧
      ∀ limit, m.limits.maxSteps = some limit → n ≤ 2 * limit + 1 := by
  obtain ⟨p, hp, rfl⟩ := start_eq_ok_iff.1 h
  obtain ⟨n, last, hend⟩ := m.exists_endsAfter ⟨p, 0, .empty, g, 0⟩
  refine ⟨n, last, hend, ?_, ?_⟩
  · intro B hB
    calc last.2.steps
        ≤ 0 + m.workload B [⟨p, 0⟩] := hend.steps_le_workload hB
      _ = p.body.size * weightOf B m.limits.maxDepth := by simp [workload]
      _ ≤ B * weightOf B m.limits.maxDepth :=
          Nat.mul_le_mul_right _ (hB p (Script.mem_of_find? hp))
      _ = ∑ i ∈ Finset.range (m.limits.maxDepth + 1), B ^ (i + 1) := mul_weightOf B _
  · intro limit hm
    exact hend.length_le hm (Nat.zero_le _)

/-- Three levels of calls and five instructions for a program of two instructions: at most
`2 + 4 + 8 + 16` instructions and eleven steps. -/
theorem exists_endsAfter_within_endless :
    ∃ n last, EndsAfter ⟨.endless, ⟨3, some 5⟩⟩ ⟨.loop, 0, .empty, ∅, 0⟩ n last ∧
      last.2.steps ≤ 30 ∧ n ≤ 11 := by
  obtain ⟨n, last, hend, hsteps, hlength⟩ :=
    exists_endsAfter_within ⟨.endless, ⟨3, some 5⟩⟩ (start_endless _ ∅)
  exact ⟨n, last, hend, hsteps 2 (by decide), hlength 5 rfl⟩

end GridLang.Machine
