import Std.Data.ExtTreeMap
import GridLang.Program

/-!
# GridLang.Script

**Scripts**: the programs of one source text, in order of definition and found by name.

Design points:

* The programs stand in an array in order of definition. An index takes a name to the position of
  its program, so that a call does not search the array.
* The type carries what ties the two together: the index gives the first position of a name, and
  no name occurs twice. So the index adds nothing that the programs do not determine, and two
  scripts are equal as soon as their programs are (`Script.ext`).
* `Script.insert` adds a program at the end. It hands back one whose name is taken.
-/

namespace GridLang

/-- Programs with distinct names, in order of definition. -/
structure Script where
  /-- The programs, in order of definition. -/
  programs : Array Program
  /-- The position of each name. -/
  index : Std.ExtTreeMap String Nat
  /-- The index gives the position of the program of a name. -/
  index_eq : ∀ name, index[name]? = programs.findIdx? (·.name = name)
  /-- No name occurs twice. -/
  nodup : (programs.toList.map Program.name).Nodup

namespace Script

/-- The script without programs. -/
def empty : Script where
  programs := #[]
  index := ∅
  index_eq := by simp
  nodup := by simp

instance : EmptyCollection Script := ⟨empty⟩

instance : Inhabited Script := ⟨empty⟩

/-- A script is determined by its programs. -/
theorem ext : ∀ {s t : Script}, s.programs = t.programs → s = t
  | ⟨_, index, h, _⟩, ⟨_, index', h', _⟩, rfl => by
    obtain rfl : index = index' := Std.ExtTreeMap.ext_getElem? fun name => by rw [h, h']
    rfl

instance : DecidableEq Script := fun s t =>
  decidable_of_iff (s.programs = t.programs) ⟨ext, fun h => by rw [h]⟩

/-- The position of the program of a name. -/
def position? (s : Script) (name : String) : Option Nat := s.index[name]?

/-- The program of a name. -/
def find? (s : Script) (name : String) : Option Program :=
  (s.position? name).bind fun i => s.programs[i]?

/-- Whether a name is defined. -/
def contains (s : Script) (name : String) : Bool := name ∈ s.index

/-- How many programs there are. -/
def size (s : Script) : Nat := s.programs.size

/-- Whether there are no programs. -/
def isEmpty (s : Script) : Bool := s.programs.isEmpty

/-- The names, in order of definition. -/
def names (s : Script) : List String := s.programs.toList.map Program.name

/-- The script with one more program, whose name is not taken. -/
def push (s : Script) (p : Program) (free : p.name ∉ s.index) : Script where
  programs := s.programs.push p
  index := s.index.insert p.name s.programs.size
  index_eq name := by
    -- The new position is found only if no earlier program has the name.
    have absent : s.programs.findIdx? (·.name = p.name) = none := by
      rw [← s.index_eq]
      exact Std.ExtTreeMap.getElem?_eq_none free
    rw [Std.ExtTreeMap.getElem?_insert, Array.findIdx?_push]
    by_cases e : p.name = name
    · subst e
      simp [absent]
    · simp [e, s.index_eq]
  nodup := by
    have absent : s.programs.findIdx? (·.name = p.name) = none := by
      rw [← s.index_eq]
      exact Std.ExtTreeMap.getElem?_eq_none free
    have other : ∀ q ∈ s.programs, q.name ≠ p.name := by simpa using absent
    simp only [Array.toList_push, List.map_append, List.map_cons, List.map_nil]
    rw [List.nodup_append]
    refine ⟨s.nodup, by simp, ?_⟩
    simp only [List.mem_map, List.mem_singleton]
    rintro _ ⟨q, hq, rfl⟩ _ rfl
    exact other q (by simpa using hq)

/-- Adds a program at the end. If its name is taken, it is handed back instead. -/
def insert (s : Script) (p : Program) : Except Program Script :=
  if h : p.name ∈ s.index then .error p else .ok (s.push p h)

/-- The text form of a script: its programs, with a blank line between one and the next. -/
def source (s : Script) : String :=
  "\n".intercalate (s.programs.toList.map fun p => p.source ++ "\n")

/-- The program of a name is the one that a search by name finds. -/
theorem find?_eq (s : Script) (name : String) :
    s.find? name = s.programs.find? (·.name = name) := by
  rw [find?, position?, s.index_eq, Array.find?_eq_bind_findIdx?_getElem?]

/-- A name is defined exactly if there is a program of that name. -/
theorem contains_iff (s : Script) (name : String) :
    s.contains name = true ↔ ∃ p ∈ s.programs, p.name = name := by
  rw [contains, decide_eq_true_iff, ← Std.ExtTreeMap.isSome_getElem?_iff_mem, s.index_eq]
  simp only [Array.findIdx?_isSome, Array.any_eq_true, decide_eq_true_eq]
  constructor
  · rintro ⟨i, h, e⟩
    exact ⟨_, Array.getElem_mem h, e⟩
  · rintro ⟨p, hp, e⟩
    obtain ⟨i, h, rfl⟩ := Array.getElem_of_mem hp
    exact ⟨i, h, e⟩

end Script

end GridLang
