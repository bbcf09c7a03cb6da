import GridLang.Proofs.CanonicalGrid
import GridLang.Proofs.WrittenCells

/-!
# GridLang.Proofs.Relabeling

**Addresses, texts and numbers are used through identity, nothing and order only.** A relabeling
replaces addresses, texts and numbers, in the operands of a script, in a grid, and in the cells that
an error shows. It is faithful to a script and a grid (`Relabeling.Faithful`) if it keeps addresses
apart, keeps 0, and keeps the order of 0 and the numbers that occur; texts may become anything. Then
the relabeled script does to the relabeled grid what the script does to the grid.

* `Grid.get?_relabel` and `Grid.relabel_set`: what a relabeled grid holds, and where.
* `Comparator.holds_relabel`: numbers whose order is kept are compared alike.
* `Machine.step_relabel`: one step, in a state that holds no other numbers than those that occur.
* `Machine.run_relabel`: a whole run, with the same error or none.
-/

namespace GridLang

/-- A replacement of the addresses, texts and numbers of programs and grids. -/
structure Relabeling where
  /-- What an address becomes. -/
  address : Address → Address
  /-- What a text becomes. -/
  text : String → String
  /-- What a number becomes. -/
  number : Int64 → Int64

/-! ### What is relabeled -/

/-- The relabeled contents of a cell. -/
def Cell.relabel (r : Relabeling) : Cell → Cell
  | number n => number (r.number n)
  | text s => text (r.text s)

/-- The relabeled operand. -/
def Operand.relabel (r : Relabeling) : Operand → Operand
  | number n => number (r.number n)
  | text s => text (r.text s)
  | cell a => cell (r.address a)

/-- The condition with its operands relabeled. -/
def Condition.relabel (r : Relabeling) (c : Condition) : Condition :=
  ⟨c.left.relabel r, c.comparator, c.right.relabel r⟩

/-- The instruction with its destination and its operands relabeled. Targets are kept. -/
def Instruction.relabel (r : Relabeling) : Instruction → Instruction
  | write a value => write (r.address a) (value.relabel r)
  | call target => call target
  | callIf condition target => callIf (condition.relabel r) target

/-- The program with its instructions relabeled. Its name is kept. -/
def Program.relabel (r : Relabeling) (p : Program) : Program :=
  ⟨p.name, p.body.map (·.relabel r)⟩

/-- The script with its programs relabeled. -/
def Script.relabel (r : Relabeling) (s : Script) : Script where
  programs := s.programs.map (·.relabel r)
  index := s.index
  index_eq name := by
    rw [s.index_eq, Array.findIdx?_map]
    rfl
  nodup := by
    rw [Array.toList_map, List.map_map]
    exact s.nodup

/-- The grid with all its cells relabeled, each at its relabeled address. -/
def Grid.relabel (r : Relabeling) (g : Grid) : Grid :=
  .ofEntries (g.entries.map fun (a, c) => (r.address a, c.relabel r))

/-- The error with the cells that it shows relabeled. -/
def RunError.relabel (r : Relabeling) : RunError → RunError
  | notANumber program left comparator right =>
    notANumber program (left.relabel r) comparator (right.relabel r)
  | e => e

/-- The outcome with its error and its grid relabeled. -/
def Machine.Outcome.relabel (r : Relabeling) (o : Machine.Outcome) : Machine.Outcome :=
  ⟨o.error?.map (·.relabel r), o.grid.relabel r⟩

/-- The machine with its script relabeled. -/
def Machine.relabel (r : Relabeling) (m : Machine) : Machine :=
  { m with script := m.script.relabel r }

/-! ### What has to be kept -/

/-- The operands of an instruction. -/
def Instruction.operands : Instruction → List Operand
  | write _ value => [value]
  | call _ => []
  | callIf condition _ => [condition.left, condition.right]

/-- The numbers that a run over a grid can meet: 0, which is read where no cell is set, those of the
operands of the script, and those of the grid. -/
inductive Script.Occurs (s : Script) (g : Grid) : Int64 → Prop
  | zero : Occurs s g 0
  | operand {p : Program} {i : Instruction} {n : Int64} :
      p ∈ s.programs → i ∈ p.body → .number n ∈ i.operands → Occurs s g n
  | cell {a : Address} {n : Int64} : g.get? a = some (.number n) → Occurs s g n

/-- A relabeling keeps apart what runs of a script over a grid can tell apart. -/
structure Relabeling.Faithful (r : Relabeling) (s : Script) (g : Grid) : Prop where
  injective : Function.Injective r.address
  zero : r.number 0 = 0
  lt : ∀ x y, s.Occurs g x → s.Occurs g y → x < y → r.number x < r.number y

/-! ### Relabeled grids -/

namespace Grid

section

variable {r : Relabeling} (hinj : Function.Injective r.address)

include hinj

/-- **A relabeled grid** holds the relabeled cells at the relabeled addresses. -/
theorem get?_relabel (g : Grid) (a : Address) :
    (g.relabel r).get? (r.address a) = (g.get? a).map (·.relabel r) := by
  cases h : g.get? a with
  | some c =>
      refine get?_setAll_of_mem _ ?_ (List.mem_map.2 ⟨(a, c), mem_entries.2 h, rfl⟩)
      have hnodup := g.nodup_entries.map hinj
      rwa [List.map_map] at hnodup ⊢
  | none =>
      refine (get?_setAll_of_not_mem _ ?_).trans (get?_empty _)
      intro c hc
      obtain ⟨⟨b, d⟩, hmem, heq⟩ := List.mem_map.1 hc
      obtain rfl := hinj (congrArg Prod.fst heq)
      rw [mem_entries.1 hmem] at h
      cases h

omit hinj in
/-- It holds nothing at other addresses. -/
theorem get?_relabel_eq_none (g : Grid) {b : Address} (h : ∀ a, r.address a ≠ b) :
    (g.relabel r).get? b = none := by
  refine (get?_setAll_of_not_mem _ ?_).trans (get?_empty _)
  intro c hc
  obtain ⟨⟨a, d⟩, -, heq⟩ := List.mem_map.1 hc
  exact h a (congrArg Prod.fst heq)

theorem relabel_set (g : Grid) (a : Address) (c : Cell) :
    (g.set a c).relabel r = (g.relabel r).set (r.address a) (c.relabel r) := by
  refine ext fun b => ?_
  by_cases hb : ∃ a', r.address a' = b
  · obtain ⟨a', rfl⟩ := hb
    rw [get?_relabel hinj, get?_set, get?_set, get?_relabel hinj]
    by_cases ha : a = a'
    · simp [ha]
    · simp [ha, hinj.ne ha]
  · simp only [not_exists] at hb
    rw [get?_relabel_eq_none _ hb, get?_set, if_neg (hb a), get?_relabel_eq_none _ hb]

theorem read_relabel (hzero : r.number 0 = 0) (g : Grid) (a : Address) :
    (g.relabel r).read (r.address a) = (g.read a).relabel r := by
  rw [read, read, get?_relabel hinj]
  cases g.get? a with
  | some c => rfl
  | none => simp [Cell.relabel, hzero]

end

end Grid

/-! ### Relabeled instructions -/

theorem Script.find?_relabel (r : Relabeling) (s : Script) (name : String) :
    (s.relabel r).find? name = (s.find? name).map (·.relabel r) := by
  rw [find?_eq, find?_eq]
  exact Array.find?_map

theorem Cell.number?_relabel (r : Relabeling) (c : Cell) :
    (c.relabel r).number? = c.number?.map r.number := by
  cases c <;> rfl

namespace Relabeling.Faithful

variable {r : Relabeling} {s : Script} {g : Grid}

theorem lt_iff (h : r.Faithful s g) {x y : Int64} (hx : s.Occurs g x) (hy : s.Occurs g y) :
    r.number x < r.number y ↔ x < y := by
  refine ⟨fun hlt => ?_, h.lt x y hx hy⟩
  -- Otherwise the two are equal, or their order would be turned round.
  rcases Std.lt_trichotomy x y with hxy | rfl | hyx
  · exact hxy
  · exact absurd hlt Int64.lt_irrefl
  · exact absurd hlt (Int64.lt_asymm (h.lt y x hy hx hyx))

theorem le_iff (h : r.Faithful s g) {x y : Int64} (hx : s.Occurs g x) (hy : s.Occurs g y) :
    r.number x ≤ r.number y ↔ x ≤ y := by
  rw [← not_iff_not, Int64.not_le, Int64.not_le, h.lt_iff hy hx]

theorem eq_iff (h : r.Faithful s g) {x y : Int64} (hx : s.Occurs g x) (hy : s.Occurs g y) :
    r.number x = r.number y ↔ x = y := by
  refine ⟨fun heq => ?_, congrArg r.number⟩
  by_contra hne
  rcases Int64.lt_or_lt_of_ne hne with hlt | hlt
  · have hlt' := h.lt x y hx hy hlt
    rw [heq] at hlt'
    exact Int64.lt_irrefl hlt'
  · have hlt' := h.lt y x hy hx hlt
    rw [heq] at hlt'
    exact Int64.lt_irrefl hlt'

end Relabeling.Faithful

/-- **Comparisons** come to the same on relabeled numbers. -/
theorem Comparator.holds_relabel {r : Relabeling} {s : Script} {g : Grid} (h : r.Faithful s g)
    {x y : Int64} (hx : s.Occurs g x) (hy : s.Occurs g y) (c : Comparator) :
    c.holds (r.number x) (r.number y) = c.holds x y := by
  cases c with
  | eq =>
      rw [holds, holds, Bool.eq_iff_iff, beq_iff_eq, beq_iff_eq]
      exact h.eq_iff hx hy
  | lt => simp only [holds, h.lt_iff hx hy]
  | le => simp only [holds, h.le_iff hx hy]
  | gt => simp only [holds, h.lt_iff hy hx]
  | ge => simp only [holds, h.le_iff hy hx]

/-- No other numbers stand in the cells of a grid than those that occur. -/
def Grid.Within (t : Grid) (s : Script) (g : Grid) : Prop :=
  ∀ a n, t.get? a = some (.number n) → s.Occurs g n

section

variable {r : Relabeling} {s : Script} {g t : Grid}

theorem Operand.value_relabel (h : r.Faithful s g) (t : Grid) (value : Operand) :
    (value.relabel r).value (t.relabel r) = (value.value t).relabel r := by
  cases value with
  | number n => rfl
  | text s => rfl
  | cell a => exact t.read_relabel h.injective h.zero a

/-- The value of an operand is no other number than those that occur. -/
theorem Operand.occurs_value {p : Program} {i : Instruction} {value : Operand} {n : Int64}
    (hp : p ∈ s.programs) (hi : i ∈ p.body) (hvalue : value ∈ i.operands) (ht : t.Within s g)
    (h : (value.value t).number? = some n) : s.Occurs g n := by
  cases value with
  | number k =>
      cases h
      exact .operand hp hi hvalue
  | text => cases h
  | cell a =>
      rw [Operand.value, Grid.read] at h
      cases hc : t.get? a with
      | none =>
          rw [hc] at h
          cases h
          exact .zero
      | some c =>
          rw [hc] at h
          cases c with
          | text => cases h
          | number k =>
              cases h
              exact ht a n hc

/-- **A relabeled condition** holds or fails where the condition does, on relabeled cells. -/
theorem Condition.eval_relabel (h : r.Faithful s g) {p : Program} {c : Condition} {target : String}
    (hp : p ∈ s.programs) (hi : .callIf c target ∈ p.body) (ht : t.Within s g) :
    (c.relabel r).eval (t.relabel r) =
      (c.eval t).mapError fun (left, right) => (left.relabel r, right.relabel r) := by
  have hleft : c.left ∈ (Instruction.callIf c target).operands := List.mem_cons_self
  have hright : c.right ∈ (Instruction.callIf c target).operands :=
    List.mem_cons_of_mem _ List.mem_cons_self
  simp only [eval, relabel, Operand.value_relabel h, Cell.number?_relabel]
  cases hx : (c.left.value t).number? with
  | none => rfl
  | some x =>
      cases hy : (c.right.value t).number? with
      | none => rfl
      | some y =>
          have hx' := Operand.occurs_value hp hi hleft ht hx
          have hy' := Operand.occurs_value hp hi hright ht hy
          simp only [Option.map_some, Comparator.holds_relabel h hx' hy']
          rfl

end

/-! ### Relabeled states -/

/-- The frame with its program relabeled. -/
def Frame.relabel (r : Relabeling) (f : Frame) : Frame := ⟨f.program.relabel r, f.pc⟩

/-- The callers with their programs relabeled. -/
def Callers.relabel (r : Relabeling) (callers : Callers) : Callers where
  frames := callers.frames.map (·.relabel r)
  depth := callers.depth
  depth_eq := by rw [List.length_map, callers.depth_eq]

@[simp] theorem Callers.frames_relabel (r : Relabeling) (callers : Callers) :
    (callers.relabel r).frames = callers.frames.map (·.relabel r) := rfl

theorem Callers.push_relabel (r : Relabeling) (callers : Callers) (f : Frame) :
    (callers.push f).relabel r = (callers.relabel r).push (f.relabel r) := ext rfl

theorem Callers.pop?_relabel (r : Relabeling) (callers : Callers) :
    (callers.relabel r).pop? =
      callers.pop?.map fun (f, rest) => (f.relabel r, rest.relabel r) := by
  cases h : callers.pop? with
  | none =>
      refine pop?_eq_none_iff.2 ?_
      rw [frames_relabel, pop?_eq_none_iff.1 h, List.map_nil]
  | some popped =>
      obtain ⟨f, rest⟩ := popped
      refine pop?_eq_some_iff.2 ?_
      rw [frames_relabel, pop?_eq_some_iff.1 h, List.map_cons, frames_relabel]

namespace Machine

/-- The state with its programs and its grid relabeled. -/
def State.relabel (r : Relabeling) (s : State) : State where
  current := s.current.relabel r
  pc := s.pc
  callers := s.callers.relabel r
  grid := s.grid.relabel r
  steps := s.steps

theorem State.advance_relabel (r : Relabeling) (s : State) :
    s.advance.relabel r = (s.relabel r).advance := rfl

theorem State.enter_relabel (r : Relabeling) (s : State) (p : Program) :
    (s.enter p).relabel r = (s.relabel r).enter (p.relabel r) := by
  simp only [enter, relabel, Callers.push_relabel]
  rfl

/-- What a step comes to, with all of it relabeled. -/
def relabelLast (r : Relabeling) (last : Status × State) : Status × State :=
  (last.1.map (·.relabel r), last.2.relabel r)

theorem call_relabel (r : Relabeling) (m : Machine) (s : State) (target : String) :
    (m.relabel r).call (s.relabel r) target = relabelLast r (m.call s target) := by
  unfold call
  rw [show (m.relabel r).script = m.script.relabel r from rfl, Script.find?_relabel]
  cases m.script.find? target with
  | none => rfl
  | some p =>
      rw [Option.map_some, show (s.relabel r).depth = s.depth from rfl]
      by_cases hd : s.depth < m.limits.maxDepth
      · simp only [show (m.relabel r).limits = m.limits from rfl, hd, if_true]
        rw [← State.enter_relabel]
        rfl
      · simp only [show (m.relabel r).limits = m.limits from rfl, hd, if_false]
        rfl

section

variable {r : Relabeling} {m : Machine} {g : Grid} {s : State}

theorem execute_relabel (h : r.Faithful m.script g) {i : Instruction}
    (hp : s.current ∈ m.script.programs) (hi : i ∈ s.current.body) (ht : s.grid.Within m.script g) :
    (m.relabel r).execute (s.relabel r) (i.relabel r) = relabelLast r (m.execute s i) := by
  cases i with
  | write a value =>
      simp only [execute, Instruction.relabel, relabelLast, State.advance_relabel]
      rw [show (s.relabel r).grid = s.grid.relabel r from rfl, Operand.value_relabel h,
        ← Grid.relabel_set h.injective]
      rfl
  | call target => exact m.call_relabel r s target
  | callIf condition target =>
      simp only [execute, Instruction.relabel]
      rw [show (s.relabel r).grid = s.grid.relabel r from rfl,
        Condition.eval_relabel h hp hi ht]
      cases condition.eval s.grid with
      | error operands => rfl
      | ok holds =>
          cases holds with
          | true => exact m.call_relabel r s target
          | false => rfl

/-- **One step** of a relabeled state comes to the relabeled end. -/
theorem step_relabel (h : r.Faithful m.script g) (hp : s.current ∈ m.script.programs)
    (ht : s.grid.Within m.script g) :
    (m.relabel r).step (s.relabel r) = relabelLast r (m.step s) := by
  have hbody : (s.relabel r).current.body[(s.relabel r).pc]? =
      s.current.body[s.pc]?.map (·.relabel r) := Array.getElem?_map
  have hspent : (m.relabel r).spent? (s.relabel r) = m.spent? s := rfl
  cases hi : s.current.body[s.pc]? with
  | some i =>
      rw [hi] at hbody
      cases hl : m.spent? s with
      | some limit =>
          rw [step_of_spent hi hl, step_of_spent hbody (hspent.trans hl)]
          rfl
      | none =>
          rw [step_of_instruction hi hl, step_of_instruction hbody (hspent.trans hl)]
          exact execute_relabel (s := s.count) h hp (Array.mem_of_getElem? hi) ht
  | none =>
      rw [hi] at hbody
      have hpop := Callers.pop?_relabel r s.callers
      cases hc : s.callers.pop? with
      | none =>
          rw [hc] at hpop
          rw [step_of_end hi hc, step_of_end hbody hpop]
          rfl
      | some popped =>
          obtain ⟨f, callers⟩ := popped
          rw [hc] at hpop
          rw [step_of_return hi hc, step_of_return hbody hpop]
          rfl

/-- A step writes no other numbers than those that occur. -/
theorem within_step (hp : s.current ∈ m.script.programs) (ht : s.grid.Within m.script g) :
    (m.step s).2.grid.Within m.script g := by
  rcases m.grid_step_cases s with ⟨a, value, hw, hg⟩ | ⟨-, hg⟩
  · intro b n hb
    rw [hg, Grid.get?_set] at hb
    by_cases hab : a = b
    · rw [if_pos hab] at hb
      have hvalue : value ∈ (Instruction.write a value).operands := List.mem_cons_self
      refine Operand.occurs_value hp (Array.mem_of_getElem? hw.next) hvalue ht ?_
      rw [Option.some.inj hb, Cell.number?_number]
    · rw [if_neg hab] at hb
      exact ht b n hb
  · rw [hg]
    exact ht

/-- The states of a run over `g`: open programs are those of the script, and the grid holds no other
numbers than those that occur. -/
structure Comparable (m : Machine) (first : String) (g : Grid) (s : State) : Prop where
  wellFormed : m.WellFormed first s
  within : s.grid.Within m.script g

theorem Comparable.mem_programs {first : String} (h : m.Comparable first g s) :
    s.current ∈ m.script.programs :=
  Script.mem_of_find? (h.wellFormed.chain.defined _ List.mem_cons_self)

theorem Comparable.step {first : String} (h : m.Comparable first g s) :
    m.Comparable first g (m.step s).2 :=
  ⟨h.wellFormed.step, within_step h.mem_programs h.within⟩

end

/-! ### Whole runs -/

/-- **Addresses, texts and numbers are used through identity, nothing and order only.** If a
relabeling keeps addresses apart, keeps 0, and keeps the order of 0 and the numbers that occur in the
script or in the grid, then a run of the relabeled script over the relabeled grid has the relabeled
outcome: the same error with the cells that it shows relabeled, or none, and the relabeled grid. -/
theorem run_relabel (m : Machine) (first : String) (g : Grid) (r : Relabeling)
    (h : r.Faithful m.script g) :
    (m.relabel r).run first (g.relabel r) = (m.run first g).relabel r := by
  have hfind := Script.find?_relabel r m.script first
  cases hp : m.script.find? first with
  | none =>
      rw [hp] at hfind
      rw [run_of_find?_eq_none hp, run_of_find?_eq_none hfind]
      rfl
  | some p =>
      rw [hp] at hfind
      have hstart := start_of_find? hp g
      have hstart' : (m.relabel r).start first (g.relabel r) =
          .ok (State.relabel r ⟨p, 0, .empty, g, 0⟩) := start_of_find? hfind _
      obtain ⟨n, last, hend⟩ := m.exists_endsAfter ⟨p, 0, .empty, g, 0⟩
      have hend' : (m.relabel r).EndsAfter (State.relabel r ⟨p, 0, .empty, g, 0⟩) n
          (relabelLast r last) := by
        refine hend.map (m.Comparable first g) (State.relabel r) (RunError.relabel r) ?_ ?_
          ⟨.start hstart, fun _ _ hn => .cell hn⟩
        · intro s hs
          exact hs.step
        · intro s hs
          exact step_relabel h hs.mem_programs hs.within
      rw [run_of_start hstart, run_of_start hstart', hend.finish_eq, hend'.finish_eq,
        Outcome.ofLast, relabelLast, Status.error?_map]
      rfl

end Machine

/-! ### A run that compares -/

/-- A program that writes a number and compares it with a cell. -/
def Program.weigh : Program :=
  ⟨"weigh", #[.write ⟨1, 2⟩ (.number 7), .callIf ⟨.cell ⟨1, 2⟩, .gt, .cell ⟨3, 3⟩⟩ "note"]⟩

/-- A program that compares it with another cell. -/
def Program.note : Program := ⟨"note", #[.callIf ⟨.cell ⟨1, 2⟩, .lt, .cell ⟨2, 1⟩⟩ "weigh"]⟩

/-- The script of these programs. -/
def Script.scales : Script := (Script.empty.push .weigh (by decide)).push .note (by decide)

/-- Rows and columns change places, all texts become one, and numbers are doubled. A comparison with
a cell that is not set still holds, and one with a text still fails. -/
theorem Machine.run_relabel_scales :
    let m : Machine := ⟨.scales, {}⟩
    let g : Grid := Grid.empty.set ⟨2, 1⟩ (.text "heavy")
    let r : Relabeling := ⟨fun a => ⟨a.col, a.row⟩, fun _ => "x", fun n => n + n⟩
    r.Faithful m.script g ∧
      (m.run "weigh" g).error? = some (.notANumber "note" (.number 7) .lt (.text "heavy")) ∧
      (m.relabel r).run "weigh" (g.relabel r) = (m.run "weigh" g).relabel r ∧
      ((m.relabel r).run "weigh" (g.relabel r)).error? =
        some (.notANumber "note" (.number 14) .lt (.text "x")) := by
  intro m g r
  have hoperands : ∀ p ∈ Script.scales.programs, ∀ i ∈ p.body, ∀ value ∈ i.operands,
      value.literal? = none ∨ value = .number 7 := by decide
  have hoccurs : ∀ n, m.script.Occurs g n → n = 0 ∨ n = 7 := by
    intro n hn
    cases hn with
    | zero => exact .inl rfl
    | operand hp hi hvalue =>
        rcases hoperands _ hp _ hi _ hvalue with hnone | hseven
        · cases hnone
        · cases hseven
          exact .inr rfl
    | @cell a _ hc =>
        rw [Grid.get?_set] at hc
        split at hc <;> simp at hc
  have hfaithful : r.Faithful m.script g := by
    refine ⟨?_, rfl, ?_⟩
    · rintro ⟨_, _⟩ ⟨_, _⟩ heq
      cases heq
      rfl
    · intro x y hx hy hxy
      rcases hoccurs x hx with rfl | rfl <;> rcases hoccurs y hy with rfl | rfl
      · exact (Int64.lt_irrefl hxy).elim
      · decide
      · exact absurd hxy (by decide)
      · exact (Int64.lt_irrefl hxy).elim
  have hstart : m.start "weigh" g = .ok ⟨.weigh, 0, .empty, g, 0⟩ :=
    start_of_find? (by decide) g
  have herror : (m.run "weigh" g).error? =
      some (.notANumber "note" (.number 7) .lt (.text "heavy")) := by
    rw [run_of_start hstart,
      (EndsAfter.next rfl (.next rfl (.last (by decide)))).finish_eq]
    decide
  have hrun := run_relabel m "weigh" g r hfaithful
  refine ⟨hfaithful, herror, hrun, ?_⟩
  rw [hrun, Outcome.relabel, herror]
  rfl

end GridLang
