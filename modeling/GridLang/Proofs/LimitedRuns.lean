import GridLang.Proofs.Moves

/-!
# GridLang.Proofs.LimitedRuns

**Limits cut a run short and do nothing else.** A machine with a smaller limit takes the same steps
as one with a larger limit, up to a state at which it stops with the error of that limit
(`EndsAfter.cut`, from what is said of one step). For the two kinds of limits:

* Under a step limit, a run ends as without one if that takes no more instructions, and otherwise in
  the state that the unlimited run has after as many instructions as the limit allows
  (`finish_withMaxSteps`).
* Under a smaller depth limit, a run ends as under the larger one, or with the error of the smaller
  one in a state that the run under the larger one comes through (`finish_withMaxDepth`).
-/

namespace GridLang.Machine

/-- A machine with another step limit. -/
def withMaxSteps (m : Machine) (maxSteps : Option Nat) : Machine :=
  { m with limits := { m.limits with maxSteps } }

/-- A machine with another depth limit. -/
def withMaxDepth (m : Machine) (maxDepth : Nat) : Machine :=
  { m with limits := { m.limits with maxDepth } }

/-- A step on `m'` comes to the same as on `m`, or it fails with a given error and leaves the grid
as it is. -/
def SameOrStops (m' m : Machine) (stops : State → RunError → Prop) (s : State) : Prop :=
  m'.step s = m.step s ∨ ∃ e t, stops s e ∧ m'.step s = (.failed e, t) ∧ t.grid = s.grid

/-- **A whole run.** If every step is the same or stops, then the run is the same, or it stops in a
state that both runs come to. -/
theorem EndsAfter.cut {m m' : Machine} {stops : State → RunError → Prop} {s : State} {n : Nat}
    {last : Status × State} (hstep : ∀ s, SameOrStops m' m stops s) (h : m.EndsAfter s n last) :
    m'.EndsAfter s n last ∨
      ∃ t e, m.Reaches s t ∧ m'.Reaches s t ∧ stops t e ∧ m'.finish s = ⟨some e, t.grid⟩ := by
  induction h with
  | @last s hne =>
      rcases hstep s with heq | ⟨e, t, hstops, hs, hg⟩
      · rw [← heq] at hne ⊢
        exact .inl (.last hne)
      · exact .inr ⟨s, e, .refl, .refl, hstops, by rw [finish_of_failed hs, hg]⟩
  | @next s t n last hs _ ih =>
      rcases hstep s with heq | ⟨e, t, hstops, hs', hg⟩
      · have hs' := heq.trans hs
        rcases ih with hend | ⟨u, e, hu, hu', hstops, hfin⟩
        · exact .inl (.next hs' hend)
        · exact .inr ⟨u, e, .head hs hu, .head hs' hu', hstops, by rw [finish_of_running hs', hfin]⟩
      · exact .inr ⟨s, e, .refl, .refl, hstops, by rw [finish_of_failed hs', hg]⟩

/-! ### The step limit -/

theorem execute_withMaxSteps (m : Machine) (maxSteps : Option Nat) (s : State) (i : Instruction) :
    (m.withMaxSteps maxSteps).execute s i = m.execute s i := by
  cases i <;> rfl

/-- **One step** under a step limit: once the limit is reached, the next instruction is not
started. -/
theorem step_withMaxSteps (m : Machine) (limit : Nat) (s : State) :
    SameOrStops (m.withMaxSteps (some limit)) (m.withMaxSteps none)
      (fun s e => (∃ i, s.current.body[s.pc]? = some i) ∧ limit ≤ s.steps ∧
        e = .stepLimitExceeded s.current.name limit) s := by
  cases hi : s.current.body[s.pc]? with
  | none =>
      refine .inl ?_
      simp only [step, hi]
  | some i =>
      by_cases hlt : s.steps < limit
      · refine .inl ?_
        have hl : (m.withMaxSteps (some limit)).spent? s = none :=
          spent?_eq_none_iff.2 fun _ h => Option.some.inj h ▸ hlt
        rw [step_of_instruction hi hl, step_of_instruction hi rfl, execute_withMaxSteps,
          execute_withMaxSteps]
      · have hle := Nat.not_lt.1 hlt
        have hl : (m.withMaxSteps (some limit)).spent? s = some limit :=
          spent?_eq_some_iff.2 ⟨rfl, hle⟩
        exact .inr ⟨_, s, ⟨⟨i, hi⟩, hle, rfl⟩, step_of_spent hi hl, rfl⟩

/-- **A whole run** under a step limit, from a state in which the limit is not passed. -/
theorem finish_withMaxSteps {m : Machine} {s : State} {n limit : Nat} {last : Status × State}
    (h : (m.withMaxSteps none).EndsAfter s n last) (hs : s.steps ≤ limit) :
    (last.2.steps ≤ limit → (m.withMaxSteps (some limit)).finish s = .ofLast last) ∧
      (limit < last.2.steps → ∃ t, (m.withMaxSteps none).Reaches s t ∧ t.steps = limit ∧
        (m.withMaxSteps (some limit)).finish s =
          ⟨some (.stepLimitExceeded t.current.name limit), t.grid⟩) := by
  rcases h.cut (m.step_withMaxSteps limit) with hend | ⟨t, e, ht, ht', ⟨⟨i, hi⟩, hle, rfl⟩, hfin⟩
  · have hlast : last.2.steps ≤ limit := hend.steps_le rfl hs
    exact ⟨fun _ => hend.finish_eq, fun hlt => absurd hlast (Nat.not_le.2 hlt)⟩
  · have hsteps : t.steps = limit := Nat.le_antisymm (ht'.steps_le_limit rfl hs) hle
    -- Without the limit, the instruction at which the run stops is executed and counted.
    obtain ⟨k, hk⟩ := h.of_reaches ht
    have hnext := steps_step_of_instruction (m := m.withMaxSteps none) hi rfl
    have hlast := hk.steps_step_le_last
    refine ⟨fun hle' => ?_, fun _ => ⟨t, ht, hsteps, hfin⟩⟩
    omega

/-! ### The depth limit -/

section

variable {m : Machine} {depth : Nat}

theorem call_withMaxDepth (h : depth ≤ m.limits.maxDepth) (s : State) (target : String) :
    (m.withMaxDepth depth).call s target = m.call s target ∨
      (m.withMaxDepth depth).call s target = (.failed (.depthExceeded s.current.name depth), s) := by
  unfold call
  rw [show (m.withMaxDepth depth).script = m.script from rfl]
  cases m.script.find? target with
  | none => exact .inl rfl
  | some p =>
      by_cases hd : s.depth < depth
      · refine .inl ?_
        simp only [withMaxDepth, hd, Nat.lt_of_lt_of_le hd h, if_true]
      · refine .inr ?_
        simp only [withMaxDepth, hd, if_false]

theorem execute_withMaxDepth (h : depth ≤ m.limits.maxDepth) (s : State) (i : Instruction) :
    (m.withMaxDepth depth).execute s i = m.execute s i ∨
      (m.withMaxDepth depth).execute s i = (.failed (.depthExceeded s.current.name depth), s) := by
  cases i with
  | write a value => exact .inl rfl
  | call target => exact call_withMaxDepth h s target
  | callIf condition target =>
      simp only [execute]
      cases condition.eval s.grid with
      | error operands => exact .inl rfl
      | ok holds =>
          cases holds with
          | true => exact call_withMaxDepth h s target
          | false => exact .inl rfl

/-- **One step** under a smaller depth limit. -/
theorem step_withMaxDepth (h : depth ≤ m.limits.maxDepth) (s : State) :
    SameOrStops (m.withMaxDepth depth) m (fun s e => e = .depthExceeded s.current.name depth) s := by
  cases hi : s.current.body[s.pc]? with
  | none =>
      refine .inl ?_
      simp only [step, hi]
  | some i =>
      cases hl : m.spent? s with
      | some limit =>
          refine .inl ?_
          rw [step_of_spent hi hl]
          exact step_of_spent hi hl
      | none =>
          have hstep : (m.withMaxDepth depth).step s = (m.withMaxDepth depth).execute s.count i :=
            step_of_instruction hi hl
          rcases execute_withMaxDepth h s.count i with heq | hfail
          · exact .inl (by rw [hstep, heq, step_of_instruction hi hl, State.count])
          · exact .inr ⟨_, s.count, rfl, hstep.trans hfail, rfl⟩

/-- **A whole run** under a smaller depth limit. -/
theorem finish_withMaxDepth (h : depth ≤ m.limits.maxDepth) (s : State) :
    (m.withMaxDepth depth).finish s = m.finish s ∨
      ∃ t, m.Reaches s t ∧
        (m.withMaxDepth depth).finish s =
          ⟨some (.depthExceeded t.current.name depth), t.grid⟩ := by
  obtain ⟨n, last, hend⟩ := m.exists_endsAfter s
  rcases hend.cut (step_withMaxDepth h) with hend' | ⟨t, e, ht, -, rfl, hfin⟩
  · exact .inl (hend'.finish_eq.trans hend.finish_eq.symm)
  · exact .inr ⟨t, ht, hfin⟩

end

/-! ### From the start -/

/-- **Limits cut a run short and do nothing else.** Let the run of a defined program without a step
limit take `last.2.steps` instructions. A step limit that allows them changes nothing, and a smaller
one stops the run with its error and with the grid after as many instructions as it allows. A
smaller depth limit changes nothing either, or it stops the run with its error in a state that the
run comes through; without such an error both runs agree. -/
theorem run_cut_by_limits (m : Machine) {name : String} {g : Grid} {s : State}
    (h : m.start name g = .ok s) :
    (∃ n last, (m.withMaxSteps none).EndsAfter s n last ∧
      (m.withMaxSteps none).run name g = .ofLast last ∧
      ∀ limit,
        (last.2.steps ≤ limit → (m.withMaxSteps (some limit)).run name g = .ofLast last) ∧
        (limit < last.2.steps →
          ∃ t, (m.withMaxSteps none).Reaches s t ∧ t.steps = limit ∧
            (∀ u, (m.withMaxSteps none).Reaches s u → u.steps = limit → u.grid = t.grid) ∧
            (m.withMaxSteps (some limit)).run name g =
              ⟨some (.stepLimitExceeded t.current.name limit), t.grid⟩)) ∧
    ∀ depth ≤ m.limits.maxDepth,
      ((m.withMaxDepth depth).run name g = m.run name g ∨
        ∃ t, m.Reaches s t ∧ (m.withMaxDepth depth).run name g =
          ⟨some (.depthExceeded t.current.name depth), t.grid⟩) ∧
      ((∀ caller limit,
          ((m.withMaxDepth depth).run name g).error? ≠ some (.depthExceeded caller limit)) →
        (m.withMaxDepth depth).run name g = m.run name g) := by
  have hsteps : ∀ maxSteps, (m.withMaxSteps maxSteps).run name g =
      (m.withMaxSteps maxSteps).finish s := fun maxSteps => run_of_start h
  have hdepth : ∀ depth, (m.withMaxDepth depth).run name g = (m.withMaxDepth depth).finish s :=
    fun depth => run_of_start h
  refine ⟨?_, ?_⟩
  · obtain ⟨n, last, hend⟩ := (m.withMaxSteps none).exists_endsAfter s
    refine ⟨n, last, hend, (hsteps none).trans hend.finish_eq, fun limit => ?_⟩
    have hzero : s.steps ≤ limit := by
      obtain ⟨p, -, rfl⟩ := start_eq_ok_iff.1 h
      exact Nat.zero_le _
    obtain ⟨hwithin, hbeyond⟩ := finish_withMaxSteps hend hzero
    rw [hsteps]
    refine ⟨hwithin, fun hlt => ?_⟩
    obtain ⟨t, ht, htl, hfin⟩ := hbeyond hlt
    exact ⟨t, ht, htl, fun u hu hul => hu.grid_eq_of_steps_eq ht (hul.trans htl.symm), hfin⟩
  · intro depth hle
    have hcut := finish_withMaxDepth hle s
    rw [hdepth, run_of_start h]
    refine ⟨hcut, fun hne => ?_⟩
    rcases hcut with heq | ⟨t, -, hfin⟩
    · exact heq
    · rw [hfin] at hne
      exact absurd rfl (hne _ _)

/-- With one level of calls, the run fails at its fourth instruction. -/
theorem run_cut_by_limits_endless :
    let m : Machine := ⟨.endless, ⟨1, none⟩⟩
    let s : State := ⟨.loop, 0, .empty, ∅, 0⟩
    m.start "loop" ∅ = .ok s ∧
      (∃ t, m.Reaches s t ∧ t.steps = 3 ∧ (m.withMaxSteps (some 3)).run "loop" ∅ =
        ⟨some (.stepLimitExceeded t.current.name 3), t.grid⟩) ∧
      ((m.withMaxDepth 0).run "loop" ∅ = m.run "loop" ∅ ∨
        ∃ t, m.Reaches s t ∧ (m.withMaxDepth 0).run "loop" ∅ =
          ⟨some (.depthExceeded t.current.name 0), t.grid⟩) := by
  intro m s
  obtain ⟨⟨n, last, hend, -, hsteps⟩, hdepth⟩ := run_cut_by_limits m (start_endless _ ∅)
  have hthree : m.Reaches s (m.steps 3 (.running, s)).2 :=
    .tail (.tail (.tail .refl rfl) rfl) rfl
  have hfour : 4 ≤ last.2.steps := by
    obtain ⟨k, hk⟩ := hend.of_reaches hthree
    exact hk.steps_step_le_last
  obtain ⟨t, ht, htsteps, -, hrun⟩ := (hsteps 3).2 hfour
  exact ⟨start_endless _ ∅, ⟨t, ht, htsteps, hrun⟩, (hdepth 0 (Nat.zero_le _)).1⟩

end GridLang.Machine
