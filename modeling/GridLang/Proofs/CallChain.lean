import Mathlib.Data.List.Chain
import GridLang.Proofs.Moves

/-!
# GridLang.Proofs.CallChain

**The open programs of a run form a chain of calls.** Read from the program being executed outwards,
each open program is called by the next one, and the last one is the program that was started
(`CallChain`). A step keeps this and the two limits (`WellFormed.step`), also a step that fails and
those taken after it; so it holds after any number of steps from the start of a run
(`wellFormed_steps`).
-/

namespace GridLang

/-- A program goes on right behind an instruction that may call another program. -/
structure Frame.WaitsFor (f : Frame) (p : Program) : Prop where
  one_le : 1 ≤ f.pc
  le_size : f.pc ≤ f.program.body.size
  calls : ∃ i, f.program.body[f.pc - 1]? = some i ∧ i.target? = some p.name

namespace Machine

/-- Open programs, the innermost first, that were called one by the other, from a program of this
name on. -/
structure CallChain (m : Machine) (name : String) (chain : List Frame) : Prop where
  defined : ∀ f ∈ chain, m.script.find? f.program.name = some f.program
  pc_le : ∀ f ∈ chain, f.pc ≤ f.program.body.size
  linked : chain.IsChain fun inner outer => outer.WaitsFor inner.program
  outermost : (chain.map fun f => f.program.name).getLast? = some name

/-- The state of a run that was started with the program of this name. -/
structure WellFormed (m : Machine) (name : String) (s : State) : Prop where
  depth_le : s.depth ≤ m.limits.maxDepth
  steps_le : ∀ limit, m.limits.maxSteps = some limit → s.steps ≤ limit
  chain : m.CallChain name s.chain

namespace CallChain

variable {m : Machine} {name : String} {p : Program} {pc : Nat} {frames : List Frame}

theorem single (h : m.script.find? name = some p) : m.CallChain name [⟨p, 0⟩] where
  defined := by simpa [Script.name_of_find? h] using h
  pc_le := by simp
  linked := .singleton _
  outermost := by simp [Script.name_of_find? h]

/-- The next instruction of the innermost program has been executed. -/
theorem advance (h : m.CallChain name (⟨p, pc⟩ :: frames)) (hpc : pc < p.body.size) :
    m.CallChain name (⟨p, pc + 1⟩ :: frames) where
  defined := by simpa using h.defined
  pc_le := by
    intro f hf
    rcases List.mem_cons.1 hf with rfl | hf
    · exact hpc
    · exact h.pc_le f (List.mem_cons_of_mem _ hf)
  linked := by
    have hl := h.linked
    rw [List.isChain_cons] at hl ⊢
    exact hl
  outermost := by simpa using h.outermost

/-- The next instruction of the innermost program has opened another one. -/
theorem enter {q : Program} {i : Instruction} (h : m.CallChain name (⟨p, pc⟩ :: frames))
    (hi : p.body[pc]? = some i) (ht : i.target? = some q.name)
    (hq : m.script.find? q.name = some q) :
    m.CallChain name (⟨q, 0⟩ :: ⟨p, pc + 1⟩ :: frames) := by
  have hpc : pc < p.body.size := (Array.getElem?_eq_some_iff.1 hi).1
  have hadv := h.advance hpc
  refine ⟨?_, ?_, ?_, ?_⟩
  · intro f hf
    rcases List.mem_cons.1 hf with rfl | hf
    · exact hq
    · exact hadv.defined f hf
  · intro f hf
    rcases List.mem_cons.1 hf with rfl | hf
    · exact Nat.zero_le _
    · exact hadv.pc_le f hf
  · exact .cons_cons ⟨Nat.succ_pos _, hpc, i, hi, ht⟩ hadv.linked
  · simpa using hadv.outermost

/-- The innermost program has ended. -/
theorem back {f g : Frame} (h : m.CallChain name (f :: g :: frames)) :
    m.CallChain name (g :: frames) where
  defined := fun k hk => h.defined k (List.mem_cons_of_mem _ hk)
  pc_le := fun k hk => h.pc_le k (List.mem_cons_of_mem _ hk)
  linked := h.linked.tail
  outermost := by simpa using h.outermost

end CallChain

namespace WellFormed

variable {m : Machine} {name : String} {s : State}

theorem start {g : Grid} (h : m.start name g = .ok s) : m.WellFormed name s := by
  obtain ⟨p, hp, rfl⟩ := start_eq_ok_iff.1 h
  exact ⟨Nat.zero_le _, fun _ _ => Nat.zero_le _, .single hp⟩

/-- **One step** keeps a state well formed, whatever it comes to. -/
theorem step (h : m.WellFormed name s) : m.WellFormed name (m.step s).2 := by
  have hsteps : ∀ limit, m.limits.maxSteps = some limit → (m.step s).2.steps ≤ limit :=
    fun limit hm => steps_step_le hm (h.steps_le limit hm)
  have hd := h.depth_le
  have hc := h.chain
  have hmove := m.move_step s
  generalize m.step s = r at hsteps hmove
  cases hmove with
  | finish | spent | fail => exact ⟨hd, hsteps, hc⟩
  | back _ hf =>
      rw [State.depth_eq, hf] at hd
      rw [State.chain, hf] at hc
      exact ⟨State.depth_eq _ ▸ Nat.le_of_succ_le hd, hsteps, hc.back⟩
  | write hi | skip hi => exact ⟨hd, hsteps, hc.advance (pc_lt_of_getElem? hi)⟩
  | enter hi _ hcall hp hlt =>
      obtain rfl := Script.name_of_find? hp
      exact ⟨hlt, hsteps, hc.enter hi hcall.target?_eq hp⟩

/-- **Any number of steps** keeps a state well formed. -/
theorem steps (h : m.WellFormed name s) (status : Status) (n : Nat) :
    m.WellFormed name (m.steps n (status, s)).2 := by
  induction n generalizing s status with
  | zero => exact h
  | succ n ih => exact ih h.step (m.step s).1

end WellFormed

/-- **The state of a run is a chain of calls from its first program, within the limits**, after any
number of steps from the start, also of steps that are taken after an error or after the end. -/
theorem wellFormed_steps (m : Machine) {name : String} {g : Grid} {s : State}
    (h : m.start name g = .ok s) (n : Nat) : m.WellFormed name (m.steps n (.running, s)).2 :=
  (WellFormed.start h).steps .running n

/-- After a write, a call, a write, a call, a write and a call too deep, and two more attempts. -/
theorem wellFormed_steps_endless :
    let m : Machine := ⟨.endless, ⟨2, none⟩⟩
    let r := m.steps 8 (.running, ⟨.loop, 0, .empty, ∅, 0⟩)
    r.1 = .failed (.depthExceeded "loop" 2) ∧ m.WellFormed "loop" r.2 :=
  ⟨by decide, wellFormed_steps _ (start_endless _ ∅) 8⟩

end Machine

end GridLang
