import GridLang.Proofs.Reachability

/-!
# GridLang.Proofs.WrittenCells

**A run touches the cells that it writes, and no others, and it makes up no contents.** The grid
changes in one way only: the next instruction is a write that the step limit allows
(`Machine.Writes`, `grid_step_cases`). So after any number of steps, also of steps that fail:

* A cell that no step has written is as it was (`get?_stateAfter_of_not_writtenBefore`), and what
  a step writes is the destination of a reachable instruction (`WrittenBefore.reachable`).
* The cells that are set are those that were, and those that have been written
  (`isSome_get?_stateAfter_iff`). Reading sets nothing, and nothing is unset.
* The contents of every cell come from the first grid, from a literal of a reachable write, or are
  the number 0 of a cell that was read without being set (`Origin`).
-/

namespace GridLang

/-- The cell that an operand stands for over every grid. -/
def Operand.literal? : Operand → Option Cell
  | number n => some (.number n)
  | text s => some (.text s)
  | cell _ => none

namespace Machine

/-- The state after a number of steps, whatever they come to. -/
def stateAfter (m : Machine) (s : State) (n : Nat) : State := (m.steps n (.running, s)).2

/-- The next step writes the value of an operand to a cell. -/
structure Writes (m : Machine) (s : State) (a : Address) (value : Operand) : Prop where
  next : s.current.body[s.pc]? = some (.write a value)
  unspent : m.spent? s = none

/-- One of the first `n` steps writes to a cell. -/
def WrittenBefore (m : Machine) (s : State) (n : Nat) (a : Address) : Prop :=
  ∃ k < n, ∃ value, m.Writes (m.stateAfter s k) a value

/-- Where the contents of a cell can come from, in a run over `g` that was started with the program
of the name `first`. -/
inductive Origin (m : Machine) (first : String) (g : Grid) : Cell → Prop
  | initial {a : Address} {c : Cell} : g.get? a = some c → Origin m first g c
  | literal {a : Address} {value : Operand} {c : Cell} :
      m.script.ReachableInstruction first (.write a value) → value.literal? = some c →
      Origin m first g c
  | unset : Origin m first g (.number 0)

/-! ### One step -/

theorem Writes.grid_step {m : Machine} {s : State} {a : Address} {value : Operand}
    (h : m.Writes s a value) : (m.step s).2.grid = s.grid.set a (value.value s.grid) := by
  rw [step_of_instruction h.next h.unspent]
  rfl

theorem grid_step_of_not_writes {m : Machine} {s : State}
    (h : ∀ a value, ¬ m.Writes s a value) : (m.step s).2.grid = s.grid := by
  have hmove := m.move_step s
  generalize m.step s = r at hmove
  cases hmove with
  | write hi hl => exact absurd ⟨hi, hl⟩ (h _ _)
  | finish | back | spent | skip | enter | fail => rfl

/-- **One step** changes the grid only by a write. -/
theorem grid_step_cases (m : Machine) (s : State) :
    (∃ a value, m.Writes s a value ∧ (m.step s).2.grid = s.grid.set a (value.value s.grid)) ∨
      (∀ a value, ¬ m.Writes s a value) ∧ (m.step s).2.grid = s.grid := by
  by_cases h : ∃ a value, m.Writes s a value
  · obtain ⟨a, value, hw⟩ := h
    exact .inl ⟨a, value, hw, hw.grid_step⟩
  · simp only [not_exists] at h
    exact .inr ⟨h, grid_step_of_not_writes h⟩

/-! ### Many steps -/

section

variable {m : Machine} {first : String} {s : State} {g : Grid}

@[simp] theorem stateAfter_zero (m : Machine) (s : State) : m.stateAfter s 0 = s := rfl

theorem stateAfter_succ (m : Machine) (s : State) (n : Nat) :
    m.stateAfter s (n + 1) = (m.step (m.stateAfter s n)).2 := by
  rw [stateAfter, steps_add]
  rfl

theorem writtenBefore_succ {n : Nat} {a : Address} :
    m.WrittenBefore s (n + 1) a ↔
      m.WrittenBefore s n a ∨ ∃ value, m.Writes (m.stateAfter s n) a value :=
  Nat.exists_lt_succ_right

/-- A cell that has not been written is as it was. -/
theorem get?_stateAfter_of_not_writtenBefore {n : Nat} {a : Address}
    (h : ¬ m.WrittenBefore s n a) : (m.stateAfter s n).grid.get? a = s.grid.get? a := by
  induction n with
  | zero => rfl
  | succ n ih =>
      rw [writtenBefore_succ, not_or] at h
      rw [stateAfter_succ, ← ih h.1]
      rcases m.grid_step_cases (m.stateAfter s n) with ⟨b, value, hw, hg⟩ | ⟨-, hg⟩
      · have hne : b ≠ a := by
          intro hb
          subst hb
          exact h.2 ⟨value, hw⟩
        rw [hg, Grid.get?_set, if_neg hne]
      · rw [hg]

/-- The cells that are set are those that were, and those that have been written. -/
theorem isSome_get?_stateAfter_iff (n : Nat) (a : Address) :
    ((m.stateAfter s n).grid.get? a).isSome ↔
      (s.grid.get? a).isSome ∨ m.WrittenBefore s n a := by
  induction n with
  | zero => simp [WrittenBefore]
  | succ n ih =>
      rw [stateAfter_succ, writtenBefore_succ, ← or_assoc, ← ih]
      rcases m.grid_step_cases (m.stateAfter s n) with ⟨b, value, hw, hg⟩ | ⟨hno, hg⟩
      · rw [hg, Grid.get?_set]
        by_cases hb : b = a
        · subst hb
          simp only [if_true, Option.isSome_some, true_iff]
          exact .inr ⟨value, hw⟩
        · have hother : ∀ v, ¬ m.Writes (m.stateAfter s n) a v := by
            intro v hv
            cases hw.next.symm.trans hv.next
            exact hb rfl
          simp [hb, hother]
      · simp [hg, hno]

/-- What is written is the destination of a reachable instruction. -/
theorem WrittenBefore.reachable {n : Nat} {a : Address} (h : m.WrittenBefore s n a)
    (hs : m.WellFormed first s) :
    ∃ value, m.script.ReachableInstruction first (.write a value) := by
  obtain ⟨k, -, value, hw⟩ := h
  exact ⟨value, (hs.steps .running k).reachableInstruction hw.next⟩

/-- The value of an operand of a reachable write comes from where the cells come from. -/
theorem Origin.value {t : Grid} (cells : ∀ a c, t.get? a = some c → m.Origin first g c)
    {a : Address} {value : Operand}
    (h : m.script.ReachableInstruction first (.write a value)) :
    m.Origin first g (value.value t) := by
  cases value with
  | number n => exact .literal h rfl
  | text s => exact .literal h rfl
  | cell b =>
      rw [Operand.value, Grid.read]
      cases hb : t.get? b with
      | none => exact .unset
      | some c => exact cells b c hb

/-- **No contents are made up.** -/
theorem origin_stateAfter (hs : m.WellFormed first s) (n : Nat) :
    ∀ a c, (m.stateAfter s n).grid.get? a = some c → m.Origin first s.grid c := by
  induction n with
  | zero => exact fun a c h => .initial h
  | succ n ih =>
      intro a c h
      rw [stateAfter_succ] at h
      rcases m.grid_step_cases (m.stateAfter s n) with ⟨b, value, hw, hg⟩ | ⟨-, hg⟩
      · rw [hg, Grid.get?_set] at h
        split at h
        next =>
          cases h
          exact .value ih ((hs.steps .running n).reachableInstruction hw.next)
        next => exact ih a c h
      · rw [hg] at h
        exact ih a c h

end

/-! ### From the start -/

/-- **A run touches the cells that it writes, and makes up no contents.** After any number of steps
from the start, also of steps that fail: A cell that no reachable instruction writes to is as it
was. A cell that was set is still set. The cells that are set, and the rows they are in, are those
of the first grid and those that have been written. The contents of each cell are those of a cell
of the first grid, a literal of a reachable write, or the number 0. -/
theorem stateAfter_touches_written (m : Machine) {first : String} {g : Grid} {s : State}
    (h : m.start first g = .ok s) (n : Nat) :
    (∀ a, (∀ value, ¬ m.script.ReachableInstruction first (.write a value)) →
        (m.stateAfter s n).grid.get? a = g.get? a) ∧
      (∀ a, (g.get? a).isSome → ((m.stateAfter s n).grid.get? a).isSome) ∧
      (∀ a, ((m.stateAfter s n).grid.get? a).isSome ↔
        (g.get? a).isSome ∨ m.WrittenBefore s n a) ∧
      (∀ row, row ∈ (m.stateAfter s n).grid.rows ↔
        row ∈ g.rows ∨ ∃ col, m.WrittenBefore s n ⟨row, col⟩) ∧
      ∀ a c, (m.stateAfter s n).grid.get? a = some c → m.Origin first g c := by
  have hs := WellFormed.start h
  obtain ⟨p, -, rfl⟩ := start_eq_ok_iff.1 h
  have hset := @isSome_get?_stateAfter_iff m ⟨p, 0, .empty, g, 0⟩ n
  refine ⟨fun a hno => ?_, fun a ha => (hset a).2 (.inl ha), hset, fun row => ?_,
    origin_stateAfter hs n⟩
  · refine get?_stateAfter_of_not_writtenBefore fun hw => ?_
    obtain ⟨value, hvalue⟩ := hw.reachable hs
    exact hno value hvalue
  · simp only [Grid.mem_rows, hset, exists_or]

/-- A run that copies a text to a cell that was not set, and then fails. -/
theorem stateAfter_touches_written_visit :
    let m : Machine := ⟨.visit, {}⟩
    let g : Grid := Grid.empty.set ⟨1, 1⟩ (.text "x")
    let s : State := ⟨.visitor, 0, .empty, g, 0⟩
    m.start "visitor" g = .ok s ∧
      (m.steps 4 (.running, s)).1 = .failed (.undefinedTarget "visitor" "nowhere") ∧
      (m.stateAfter s 4).grid.get? ⟨9, 9⟩ = g.get? ⟨9, 9⟩ ∧
      ((m.stateAfter s 4).grid.get? ⟨1, 1⟩).isSome ∧
      (g.get? ⟨2, 1⟩ = none ∧ m.WrittenBefore s 4 ⟨2, 1⟩ ∧
        ((m.stateAfter s 4).grid.get? ⟨2, 1⟩).isSome ∧ 2 ∈ (m.stateAfter s 4).grid.rows) ∧
      ∀ c, (m.stateAfter s 4).grid.get? ⟨2, 1⟩ = some c → m.Origin "visitor" g c := by
  intro m g s
  have hstart : m.start "visitor" g = .ok s := start_eq_ok_iff.2 ⟨.visitor, by decide, rfl⟩
  have hwritten : m.WrittenBefore s 4 ⟨2, 1⟩ :=
    ⟨1, by decide, .cell ⟨1, 1⟩, by decide, by decide⟩
  obtain ⟨hframe, hkept, hset, hrows, horigin⟩ := stateAfter_touches_written m hstart 4
  refine ⟨hstart, by decide, hframe _ ?_, hkept _ (by decide),
    ⟨by decide, hwritten, (hset _).2 (.inr hwritten), (hrows _).2 (.inr ⟨_, hwritten⟩)⟩,
    horigin _⟩
  -- The one write to this cell stands in a program that is not reachable.
  intro value hwrite
  obtain ⟨name, p, hname, hp, hi⟩ := hwrite
  have hnames := Script.mem_of_reachable_visit hname
  simp only [List.mem_cons, List.not_mem_nil, or_false] at hnames
  rcases hnames with rfl | rfl | rfl
  · have hvisitor : Script.visit.find? "visitor" = some .visitor := by decide
    cases hvisitor.symm.trans hp
    simp [Program.visitor] at hi
  · have hcopy : Script.visit.find? "copy" = some .copy := by decide
    cases hcopy.symm.trans hp
    simp [Program.copy] at hi
  · have hnone : Script.visit.find? "nowhere" = none := by decide
    cases hnone.symm.trans hp

end Machine

end GridLang
