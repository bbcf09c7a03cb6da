import GridLang.Proofs.CallChain
import Mathlib.Data.List.Nodup

/-!
# GridLang.Proofs.Reachability

**A run depends on the programs that calls can lead to, and on no others.** The instructions of a
script say which names its programs may call (`Script.MayCall`), whatever their conditions come to.
The names that such calls can lead to from a first name are its reachable names
(`Script.Reachable`); some of them may not be defined.

* `CallChain.reachable`: the open programs of a run are reachable from its first one. So is what the
  next instruction calls.
* `step_withScript`: a step looks up nothing else. In another script that says the same of all
  reachable names, it comes to the same.
* `run_eq_of_reachable`: so do whole runs. The order of the programs does not matter, nor do
  programs that are not reachable.
-/

namespace GridLang

namespace Script

/-- A program has an instruction with this target. -/
def MayCall (s : Script) (name target : String) : Prop :=
  ∃ p, s.find? name = some p ∧ ∃ i ∈ p.body, i.target? = some target

/-- Calls can lead from one name to another. Every name is reachable from itself. -/
def Reachable (s : Script) : String → String → Prop := Relation.ReflTransGen s.MayCall

/-- An instruction of a program whose name is reachable. -/
def ReachableInstruction (s : Script) (first : String) (i : Instruction) : Prop :=
  ∃ name p, s.Reachable first name ∧ s.find? name = some p ∧ i ∈ p.body

theorem find?_eq_some_iff {s : Script} {name : String} {p : Program} :
    s.find? name = some p ↔ p ∈ s.programs ∧ p.name = name := by
  constructor
  · intro h
    exact ⟨mem_of_find? h, name_of_find? h⟩
  · intro h
    obtain ⟨hp, rfl⟩ := h
    cases hq : s.find? p.name with
    | none =>
        rw [find?_eq, Array.find?_eq_none] at hq
        exact absurd (decide_eq_true rfl) (hq p hp)
    | some q =>
        -- No name occurs twice.
        have hmem := Array.mem_toList_iff.2 (mem_of_find? hq)
        rw [List.inj_on_of_nodup_map s.nodup hmem (Array.mem_toList_iff.2 hp) (name_of_find? hq)]

theorem mem_programs_iff {s : Script} {p : Program} : p ∈ s.programs ↔ s.find? p.name = some p := by
  rw [find?_eq_some_iff]
  exact (and_iff_left rfl).symm

theorem ReachableInstruction.reachable {s : Script} {first target : String} {i : Instruction}
    (h : s.ReachableInstruction first i) (ht : i.target? = some target) :
    s.Reachable first target := by
  obtain ⟨name, p, hname, hp, hi⟩ := h
  exact .tail hname ⟨p, hp, i, hi, ht⟩

/-- Names that contain a first one, and that calls do not lead out of, contain all that are
reachable. -/
theorem Reachable.mem_of_closed {s : Script} {first name : String} {names : List String}
    (h : s.Reachable first name) (hfirst : first ∈ names)
    (closed : ∀ n ∈ names, ∀ p ∈ s.find? n, ∀ i ∈ p.body, ∀ target ∈ i.target?, target ∈ names) :
    name ∈ names := by
  induction h with
  | refl => exact hfirst
  | tail _ hcall ih =>
      obtain ⟨p, hp, i, hi, ht⟩ := hcall
      exact closed _ ih p hp i hi _ ht

end Script

namespace Machine

/-! ### The programs of a run -/

/-- **Open programs are reachable** from the program that was started. -/
theorem CallChain.reachable {m : Machine} {first : String} {chain : List Frame}
    (h : m.CallChain first chain) : ∀ f ∈ chain, m.script.Reachable first f.program.name := by
  -- From the outermost program inwards, each one is called by the one before.
  induction chain with
  | nil => simp
  | cons f frames ih =>
      cases frames with
      | nil =>
          have hf : f.program.name = first := by simpa using h.outermost
          intro g hg
          rw [List.mem_singleton.1 hg, hf]
          exact .refl
      | cons g frames =>
          have outer := ih h.back
          obtain ⟨i, hi, ht⟩ := (List.isChain_cons_cons.1 h.linked).1.calls
          have hg := h.defined g (by simp)
          intro k hk
          rcases List.mem_cons.1 hk with rfl | hk
          · exact .tail (outer g (by simp)) ⟨g.program, hg, i, Array.mem_of_getElem? hi, ht⟩
          · exact outer k hk

theorem WellFormed.reachableInstruction {m : Machine} {first : String} {s : State} {i : Instruction}
    (h : m.WellFormed first s) (hi : s.current.body[s.pc]? = some i) :
    m.script.ReachableInstruction first i :=
  have hmem : (⟨s.current, s.pc⟩ : Frame) ∈ s.chain := List.mem_cons_self
  ⟨_, _, h.chain.reachable _ hmem, h.chain.defined _ hmem, Array.mem_of_getElem? hi⟩

/-! ### Another script -/

/-- A machine with another script. -/
def withScript (m : Machine) (script : Script) : Machine := { m with script }

section

variable {m : Machine} {t : Script} {first : String} {s : State}

theorem call_withScript {target : String} (h : m.script.find? target = t.find? target) (s : State) :
    (m.withScript t).call s target = m.call s target := by
  unfold call
  rw [h]
  rfl

theorem execute_withScript {i : Instruction}
    (h : ∀ target, i.target? = some target → m.script.find? target = t.find? target) (s : State) :
    (m.withScript t).execute s i = m.execute s i := by
  cases i with
  | write a value => rfl
  | call target => exact call_withScript (h target rfl) s
  | callIf condition target => simp only [execute, call_withScript (h target rfl) s]

/-- **One step** comes to the same over a script that says the same of all reachable names. -/
theorem step_withScript (agree : ∀ name, m.script.Reachable first name →
    m.script.find? name = t.find? name) (h : m.WellFormed first s) :
    (m.withScript t).step s = m.step s := by
  cases hi : s.current.body[s.pc]? with
  | none => simp only [step, hi]
  | some i =>
      have hexec := execute_withScript (m := m) fun target ht =>
        agree target ((h.reachableInstruction hi).reachable ht)
      cases hl : m.spent? s with
      | some limit =>
          rw [step_of_spent hi hl]
          exact step_of_spent hi hl
      | none =>
          have hstep : (m.withScript t).step s = (m.withScript t).execute s.count i :=
            step_of_instruction hi hl
          rw [hstep, hexec, step_of_instruction hi hl, State.count]

/-- **A whole run** does so too. -/
theorem finish_withScript (agree : ∀ name, m.script.Reachable first name →
    m.script.find? name = t.find? name) (h : m.WellFormed first s) :
    (m.withScript t).finish s = m.finish s := by
  obtain ⟨n, last, hend⟩ := m.exists_endsAfter s
  have hend' : (m.withScript t).EndsAfter s n (last.1.map id, last.2) := by
    refine hend.map (m.WellFormed first) id id (fun u hu => hu.step) ?_ h
    intro u hu
    rw [Status.map_id]
    exact step_withScript agree hu
  rw [Status.map_id] at hend'
  exact hend'.finish_eq.trans hend.finish_eq.symm

end

end Machine

/-! ### Runs over two scripts -/

/-- Runs that start with the program of this name end in the same way over both scripts, under all
limits and over all grids. -/
def Script.SameRuns (s t : Script) (first : String) : Prop :=
  ∀ (limits : Limits) (g : Grid),
    (Machine.mk s limits).run first g = (Machine.mk t limits).run first g

theorem Script.sameRuns_of_find? {s t : Script} {first : String}
    (agree : ∀ name, s.Reachable first name → s.find? name = t.find? name) :
    s.SameRuns t first := by
  intro limits g
  have hfirst := agree first .refl
  cases hs : (Machine.mk s limits).start first g with
  | error e =>
      have ht : (Machine.mk t limits).start first g = .error e := by
        rw [← hs, Machine.start, Machine.start, hfirst]
      rw [Machine.run, hs, Machine.run, ht]
  | ok st =>
      have ht : (Machine.mk t limits).start first g = .ok st := by
        rw [← hs, Machine.start, Machine.start, hfirst]
      rw [Machine.run_of_start hs, Machine.run_of_start ht]
      exact (Machine.finish_withScript (m := ⟨s, limits⟩) agree (.start hs)).symm

theorem Script.find?_eq_of_mem_iff {s t : Script} {name : String}
    (h : ∀ p, p.name = name → (p ∈ s.programs ↔ p ∈ t.programs)) : s.find? name = t.find? name := by
  refine Option.ext fun p => ?_
  rw [find?_eq_some_iff, find?_eq_some_iff]
  exact and_congr_left (h p)

/-- **A run depends on the reachable programs only.** If two scripts say the same of every name that
is reachable in the first one, be it defined or not, runs end in the same way over both, with the
same error or none and with the same grid. So the order of the programs does not matter, and neither
do programs of one script or the other that are not reachable. -/
theorem Script.run_eq_of_reachable (s t : Script) (first : String) :
    ((∀ name, s.Reachable first name → s.find? name = t.find? name) → s.SameRuns t first) ∧
      (s.programs.toList.Perm t.programs.toList → s.SameRuns t first) ∧
      ((∀ p, s.Reachable first p.name → (p ∈ s.programs ↔ p ∈ t.programs)) →
        s.SameRuns t first) := by
  refine ⟨sameRuns_of_find?, fun hperm => ?_, fun hmem => ?_⟩
  · refine sameRuns_of_find? fun name _ => find?_eq_of_mem_iff fun p _ => ?_
    simpa using hperm.mem_iff (a := p)
  · refine sameRuns_of_find? fun name hname => find?_eq_of_mem_iff fun p hp => ?_
    exact hmem p (hp ▸ hname)

/-! ### A run that calls an undefined program -/

/-- A program that copies a cell. -/
def Program.copy : Program := ⟨"copy", #[.write ⟨2, 1⟩ (.cell ⟨1, 1⟩)]⟩

/-- A program that calls `copy` as long as its result is not set, and then a program that is not
defined. -/
def Program.visitor : Program :=
  ⟨"visitor", #[.callIf ⟨.cell ⟨2, 1⟩, .eq, .number 0⟩ "copy", .call "nowhere"]⟩

/-- A program that nothing calls. -/
def Program.idle : Program := ⟨"idle", #[.write ⟨9, 9⟩ (.text "idle"), .call "visitor"]⟩

/-- The script of these programs. -/
def Script.visit : Script :=
  ((Script.empty.push .visitor (by decide)).push .idle (by decide)).push .copy (by decide)

theorem Script.mem_of_reachable_visit {name : String} (h : visit.Reachable "visitor" name) :
    name ∈ ["visitor", "copy", "nowhere"] :=
  h.mem_of_closed (by decide) (by decide)

/-- The programs of `visit` in the other order, and then without the one that is not reachable. The
run comes to a call of a program that none of the scripts defines. -/
theorem Script.run_eq_of_reachable_visit :
    let turned := ((Script.empty.push .copy (by decide)).push .idle (by decide)).push .visitor
      (by decide)
    let trimmed := (Script.empty.push .copy (by decide)).push .visitor (by decide)
    visit.Reachable "visitor" "nowhere" ∧ visit.find? "nowhere" = none ∧
      (visit.programs.toList.Perm turned.programs.toList ∧ visit.SameRuns turned "visitor") ∧
      (∀ name, visit.Reachable "visitor" name → visit.find? name = trimmed.find? name) ∧
      (∀ p, visit.Reachable "visitor" p.name → (p ∈ visit.programs ↔ p ∈ trimmed.programs)) ∧
      visit.SameRuns trimmed "visitor" := by
  intro turned trimmed
  have hcall : visit.MayCall "visitor" "nowhere" :=
    ⟨.visitor, by decide, .call "nowhere", by simp [Program.visitor], rfl⟩
  have hperm : visit.programs.toList.Perm turned.programs.toList := (List.reverse_perm _).symm
  have agree : ∀ name, visit.Reachable "visitor" name → visit.find? name = trimmed.find? name := by
    intro name h
    have all : ∀ n ∈ ["visitor", "copy", "nowhere"], visit.find? n = trimmed.find? n := by decide
    exact all name (mem_of_reachable_visit h)
  have hmem : ∀ p, visit.Reachable "visitor" p.name →
      (p ∈ visit.programs ↔ p ∈ trimmed.programs) := by
    intro p h
    rw [mem_programs_iff, mem_programs_iff, agree p.name h]
  exact ⟨.single hcall, by decide, ⟨hperm, (run_eq_of_reachable visit turned "visitor").2.1 hperm⟩,
    agree, hmem, (run_eq_of_reachable visit trimmed "visitor").2.2 hmem⟩

end GridLang
