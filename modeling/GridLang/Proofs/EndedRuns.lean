import GridLang.Proofs.WrittenCells

/-!
# GridLang.Proofs.EndedRuns

**A run that has ended stays as it is**, however often the machine is stepped on. A step that fails
leaves everything but the count of instructions, and the instruction that has failed is the next one
still. So the next step fails in the same way (`Machine.Blocked`), until the step limit is reached,
and with the error of that limit from then on. A step at the end of the first program changes
nothing, so the run stays done.

* `execute_withSteps`: what an instruction comes to does not depend on the count.
* `failed_cases`: a step fails because the limit is reached, or because its instruction is blocked.
* `steps_after_end`: what all later steps come to, in every state that a machine can be in.
-/

namespace GridLang

/-- The error of an instruction that the step limit does not allow. -/
def RunError.IsStepLimit (e : RunError) : Prop :=
  ∃ program limit, e = .stepLimitExceeded program limit

namespace Machine

/-- A state with another count of instructions. Everything else is as it was. -/
def State.withSteps (s : State) (steps : Nat) : State := { s with steps }

@[simp] theorem State.steps_withSteps (s : State) (k : Nat) : (s.withSteps k).steps = k := rfl

@[simp] theorem State.withSteps_withSteps (s : State) (k n : Nat) :
    (s.withSteps k).withSteps n = s.withSteps n := rfl

theorem State.count_eq (s : State) : s.count = s.withSteps (s.steps + 1) := rfl

/-! ### Instructions that fail -/

theorem call_withSteps (m : Machine) (s : State) (target : String) (k : Nat) :
    m.call (s.withSteps k) target =
      ((m.call s target).1, (m.call s target).2.withSteps k) := by
  unfold call
  cases m.script.find? target with
  | none => rfl
  | some p =>
      rw [show (s.withSteps k).depth = s.depth from rfl]
      by_cases hd : s.depth < m.limits.maxDepth
      · simp only [hd, if_true]
        rfl
      · simp only [hd, if_false]
        rfl

/-- **The count** is carried along by an instruction and does not decide what it comes to. -/
theorem execute_withSteps (m : Machine) (s : State) (i : Instruction) (k : Nat) :
    m.execute (s.withSteps k) i = ((m.execute s i).1, (m.execute s i).2.withSteps k) := by
  cases i with
  | write a value => rfl
  | call target => exact m.call_withSteps s target k
  | callIf condition target =>
      simp only [execute, show (s.withSteps k).grid = s.grid from rfl]
      cases condition.eval s.grid with
      | error operands => rfl
      | ok holds =>
          cases holds with
          | true => exact m.call_withSteps s target k
          | false => rfl

/-- The next instruction of a state fails once it is executed. -/
def Blocked (m : Machine) (s : State) (e : RunError) : Prop :=
  ∃ i, s.current.body[s.pc]? = some i ∧ m.execute s i = (.failed e, s)

section

variable {m : Machine} {s t : State} {e : RunError}

theorem Blocked.withSteps (h : m.Blocked s e) (k : Nat) : m.Blocked (s.withSteps k) e := by
  obtain ⟨i, hi, he⟩ := h
  refine ⟨i, hi, ?_⟩
  rw [execute_withSteps, he]

/-- **One step** fails and counts the instruction, if the step limit allows it. -/
theorem Blocked.step (h : m.Blocked s e) (hl : m.spent? s = none) :
    m.step s = (.failed e, s.count) := by
  obtain ⟨i, hi, he⟩ := h
  have hcounted : m.execute s.count i = (.failed e, s.count) := by
    rw [State.count_eq, execute_withSteps, he]
  exact (step_of_instruction hi hl).trans hcounted

theorem Fault.not_isStepLimit {i : Instruction} (h : m.Fault s i e) : ¬ e.IsStepLimit := by
  rintro ⟨_, _, rfl⟩
  cases h

/-- **A failing step** is one that the step limit does not allow, which leaves the state as it is,
or one that executes a blocked instruction, which leaves all but the count. -/
theorem failed_cases (h : m.step s = (.failed e, t)) :
    (∃ i limit, s.current.body[s.pc]? = some i ∧ m.spent? s = some limit ∧
        e = .stepLimitExceeded s.current.name limit ∧ t = s) ∨
      m.spent? s = none ∧ ¬ e.IsStepLimit ∧ t = s.count ∧ m.Blocked s.count e := by
  cases move_of_step h with
  | spent hi hm hle => exact .inl ⟨_, _, hi, spent?_eq_some_iff.2 ⟨hm, hle⟩, rfl, rfl⟩
  | @fail i e hi hl hfault =>
      refine .inr ⟨hl, hfault.not_isStepLimit, rfl, i, hi, ?_⟩
      exact (step_of_instruction hi hl).symm.trans h

theorem step_of_done (h : m.step s = (.done, t)) : t = s := by
  cases move_of_step h with
  | finish => rfl

/-! ### Stepping on -/

/-- **Many steps** of a blocked instruction, as long as the step limit allows them. -/
theorem Blocked.steps (h : m.Blocked s e) (n : Nat)
    (hwithin : ∀ limit, m.limits.maxSteps = some limit → s.steps + n ≤ limit) :
    m.steps n (.failed e, s) = (.failed e, s.withSteps (s.steps + n)) := by
  induction n generalizing s with
  | zero => rfl
  | succ n ih =>
      have hl : m.spent? s = none := by
        refine spent?_eq_none_iff.2 ?_
        intro limit hm
        have hle := hwithin limit hm
        omega
      have hrest := ih (h.withSteps (s.steps + 1)) ?_
      · rw [steps_succ, h.step hl, State.count_eq, hrest, State.steps_withSteps,
          State.withSteps_withSteps, Nat.add_assoc, Nat.add_comm 1 n]
      · intro limit hm
        have hle := hwithin limit hm
        rw [State.steps_withSteps]
        omega

/-- Once the step limit is reached, nothing changes any more. -/
theorem steps_of_spent {i : Instruction} {limit : Nat} (hi : s.current.body[s.pc]? = some i)
    (hl : m.spent? s = some limit) (status : Status) (n : Nat) :
    m.steps (n + 1) (status, s) = (.failed (.stepLimitExceeded s.current.name limit), s) := by
  induction n generalizing status with
  | zero => exact step_of_spent hi hl
  | succ n ih => rw [steps_succ, step_of_spent hi hl, ih]

/-- **Many steps** of a blocked instruction, beyond the step limit. -/
theorem Blocked.steps_beyond (h : m.Blocked s e) {n limit : Nat}
    (hm : m.limits.maxSteps = some limit) (hle : s.steps ≤ limit) (hlt : limit < s.steps + n) :
    m.steps n (.failed e, s) =
      (.failed (.stepLimitExceeded s.current.name limit), s.withSteps limit) := by
  obtain ⟨i, hi, -⟩ := id h
  -- The first steps use up what is left of the limit.
  obtain ⟨within, rfl⟩ := Nat.exists_eq_add_of_le hle
  obtain ⟨beyond, rfl⟩ := Nat.exists_eq_add_of_lt (Nat.lt_of_add_lt_add_left hlt)
  have hfirst := h.steps within fun limit' hm' => by
    cases hm.symm.trans hm'
    exact Nat.le_refl _
  have hl : m.spent? (s.withSteps (s.steps + within)) = some (s.steps + within) :=
    spent?_eq_some_iff.2 ⟨hm, Nat.le_refl _⟩
  rw [Nat.add_assoc, steps_add, hfirst]
  exact steps_of_spent (s := s.withSteps (s.steps + within)) hi hl _ beyond

theorem steps_of_done (h : m.step s = (.done, s)) (n : Nat) :
    m.steps n (.done, s) = (.done, s) := by
  induction n with
  | zero => rfl
  | succ n ih => rw [steps_succ, h, ih]

end

/-! ### From the start -/

/-- **A run that has ended stays as it is.** After any number of steps from the start, let `s` be the
state.

* If a step fails, it leaves `s` as it is or, unless its error is that of the step limit, with one
  more instruction counted. The `n`-th step after it fails with the same error if the step limit
  allows `n` more instructions, and otherwise with the error of the step limit. All that changes is
  the count, up to the limit.
* If a step comes to the end of the first program, then so do all steps after it, and nothing
  changes. -/
theorem steps_after_end (m : Machine) {first : String} {g : Grid} {s₀ : State}
    (h : m.start first g = .ok s₀) (k : Nat) :
    let s := m.stateAfter s₀ k
    (∀ e t, m.step s = (.failed e, t) →
      ((e.IsStepLimit → t = s) ∧ (¬ e.IsStepLimit → t = s.withSteps (s.steps + 1))) ∧
      (∀ n, (∀ limit, m.limits.maxSteps = some limit → t.steps + n ≤ limit) →
        m.steps n (.failed e, t) = (.failed e, s.withSteps (t.steps + n))) ∧
      ∀ n limit, m.limits.maxSteps = some limit → limit < t.steps + n →
        m.steps n (.failed e, t) =
          (.failed (.stepLimitExceeded s.current.name limit), s.withSteps limit)) ∧
    ∀ t, m.step s = (.done, t) → t = s ∧ ∀ n, m.steps n (.done, t) = (.done, s) := by
  intro s
  have hs : m.WellFormed first s := (WellFormed.start h).steps .running k
  refine ⟨?_, ?_⟩
  · intro e t hstep
    rcases failed_cases hstep with ⟨i, limit, hi, hl, rfl, ht⟩ | ⟨hl, hnot, rfl, hblocked⟩
    · obtain ⟨hm, hle⟩ := spent?_eq_some_iff.1 hl
      obtain rfl : s.steps = limit := Nat.le_antisymm (hs.steps_le limit hm) hle
      rw [ht]
      refine ⟨⟨fun _ => rfl, fun hnot => absurd ⟨_, _, rfl⟩ hnot⟩, ?_, ?_⟩
      · intro n hwithin
        obtain rfl : n = 0 := by
          have hle' := hwithin _ hm
          omega
        rfl
      · intro n limit' hm' hlt
        cases hm.symm.trans hm'
        obtain ⟨n, rfl⟩ : ∃ k, n = k + 1 := Nat.exists_eq_succ_of_ne_zero (by omega)
        exact steps_of_spent hi hl _ n
    · refine ⟨⟨fun hlimit => absurd hlimit hnot, fun _ => rfl⟩, ?_, ?_⟩
      · intro n hwithin
        exact hblocked.steps n hwithin
      · intro n limit hm hlt
        exact hblocked.steps_beyond hm (spent?_eq_none_iff.1 hl limit hm) hlt
  · intro t hstep
    obtain rfl := step_of_done hstep
    exact ⟨rfl, steps_of_done hstep⟩

/-- A call too deep is tried again until the limit of three instructions is reached, and a program
of one instruction stays done. -/
theorem steps_after_end_endless :
    let m : Machine := ⟨.endless, ⟨0, some 3⟩⟩
    let s : State := ⟨.loop, 1, .empty, Grid.empty.set ⟨1, 1⟩ (.number 7), 1⟩
    let t : State := s.withSteps 2
    (m.step s = (.failed (.depthExceeded "loop" 0), t) ∧
      m.steps 1 (.failed (.depthExceeded "loop" 0), t) =
        (.failed (.depthExceeded "loop" 0), s.withSteps 3) ∧
      m.steps 9 (.failed (.depthExceeded "loop" 0), t) =
        (.failed (.stepLimitExceeded "loop" 3), s.withSteps 3)) ∧
    let m' : Machine := ⟨.visit, {}⟩
    let s' : State := ⟨.copy, 1, .empty, Grid.empty.set ⟨2, 1⟩ (.number 0), 1⟩
    m'.step s' = (.done, s') ∧ m'.steps 9 (.done, s') = (.done, s') := by
  intro m s t
  have hstep : m.step s = (.failed (.depthExceeded "loop" 0), t) := by decide
  obtain ⟨-, hwithin, hbeyond⟩ :=
    (steps_after_end m (start_endless _ Grid.empty) 1).1 _ _ hstep
  refine ⟨⟨hstep, hwithin 1 ?_, hbeyond 9 3 rfl (by decide)⟩, ?_⟩
  · intro limit hlimit
    cases hlimit
    decide
  · intro m' s'
    have hstart : m'.start "copy" Grid.empty = .ok ⟨.copy, 0, .empty, Grid.empty, 0⟩ :=
      start_of_find? (by decide) Grid.empty
    have hdone : m'.step s' = (.done, s') := by decide
    exact ⟨hdone, ((steps_after_end m' hstart 1).2 _ hdone).2 9⟩

end Machine

end GridLang
