import GridLang.Program

/-!
# GridLang.Machine.Callers

**The callers that wait** for the program being executed, the latest first.

They are counted as they come and go, so that a call can compare their number with the depth
limit at once. The count is tied to the frames by a proof, so it adds nothing to them: callers
are equal as soon as their frames are (`Callers.ext`).

* `pop?_eq_some_iff` and `frames_push` say what the operations do to the frames.
-/

namespace GridLang

/-- A caller that waits, and where it goes on. -/
structure Frame where
  /-- The program of the caller. -/
  program : Program
  /-- The position of its next instruction. -/
  pc : Nat
  deriving Repr, DecidableEq

/-- The callers that wait, and how many they are. -/
structure Callers where
  /-- The callers, the latest first. -/
  frames : List Frame
  /-- Their number. -/
  depth : Nat
  /-- The number is right. -/
  depth_eq : depth = frames.length
  deriving Repr, DecidableEq

namespace Callers

/-- No callers. -/
def empty : Callers := ⟨[], 0, rfl⟩

/-- One more caller. -/
def push (callers : Callers) (f : Frame) : Callers :=
  ⟨f :: callers.frames, callers.depth + 1, by rw [callers.depth_eq, List.length_cons]⟩

/-- The latest caller, and the callers before it. -/
def pop? (callers : Callers) : Option (Frame × Callers) :=
  match h : callers.frames with
  | [] => none
  | f :: frames => some (f, ⟨frames, callers.depth - 1, by simp [callers.depth_eq, h]⟩)

/-- Callers are determined by their frames. -/
theorem ext {c d : Callers} (h : c.frames = d.frames) : c = d := by
  obtain ⟨frames, depth, hc⟩ := c
  obtain ⟨frames', depth', hd⟩ := d
  obtain rfl : frames = frames' := h
  simp [hc, hd]

@[simp] theorem frames_empty : empty.frames = [] := rfl

@[simp] theorem frames_push (callers : Callers) (f : Frame) :
    (callers.push f).frames = f :: callers.frames := rfl

theorem pop?_eq_none_iff {callers : Callers} : callers.pop? = none ↔ callers.frames = [] := by
  unfold pop?
  split <;> simp_all

theorem pop?_eq_some_iff {callers rest : Callers} {f : Frame} :
    callers.pop? = some (f, rest) ↔ callers.frames = f :: rest.frames := by
  unfold pop?
  split
  next e => simp [e]
  next g frames e =>
    constructor
    · intro h
      cases h
      exact e
    · intro h
      obtain ⟨rfl, rfl⟩ := List.cons.inj (h.symm.trans e)
      exact congrArg (fun callers => some (f, callers)) (ext rfl)

@[simp] theorem pop?_empty : empty.pop? = none := rfl

@[simp] theorem pop?_push (callers : Callers) (f : Frame) :
    (callers.push f).pop? = some (f, callers) := pop?_eq_some_iff.2 rfl

end Callers

end GridLang
