import GridLang.Proofs.Grammar
import GridLang.Proofs.Reachability

/-!
# GridLang.Proofs.InsertedPrograms

**What a sequence of insertions leaves.** An insertion that is rejected leaves the script as it was
(`Script.afterInsert`), so each name keeps the program that was inserted under it first, in the
order of the insertions (`Script.programs_insertAll`).

The programs and the index of a script say the same (`Script.Coherent`): the index leads to the
place of each program, and to no other place. So it adds nothing to the programs, and scripts are
equal as soon as these are. `Script.insertAll_coherent` puts this together for any insertions.
-/

namespace GridLang

/-! ### The first program under each name -/

/-- The programs whose name no earlier one has, in order. -/
def Program.firsts : List Program → List Program
  | [] => []
  | p :: ps => p :: (firsts ps).filter fun q => q.name ≠ p.name

namespace Program

/-- No name is lost. -/
theorem exists_mem_firsts_iff {ps : List Program} {name : String} :
    (∃ p ∈ firsts ps, p.name = name) ↔ ∃ p ∈ ps, p.name = name := by
  induction ps with
  | nil => rfl
  | cons p ps ih =>
      by_cases hp : p.name = name
      · simp [firsts, hp]
      · simp only [firsts, List.exists_mem_cons_iff, hp, false_or, ← ih, List.mem_filter,
          decide_eq_true_eq]
        constructor
        · rintro ⟨q, ⟨hq, -⟩, hname⟩
          exact ⟨q, hq, hname⟩
        · rintro ⟨q, hq, rfl⟩
          exact ⟨q, ⟨hq, Ne.symm hp⟩, rfl⟩

/-- Of further programs, those stay whose name is new. -/
theorem firsts_append (ps qs : List Program) : firsts (ps ++ qs) =
    firsts ps ++ (firsts qs).filter fun q => ∀ p ∈ ps, p.name ≠ q.name := by
  induction ps with
  | nil => simp [firsts]
  | cons p ps ih =>
      have hnew (q : Program) : (decide (q.name ≠ p.name) && decide (∀ r ∈ ps, r.name ≠ q.name)) =
          decide (∀ r ∈ p :: ps, r.name ≠ q.name) := by
        rw [← Bool.decide_and, decide_eq_decide, List.forall_mem_cons, ne_comm]
      rw [List.cons_append, firsts, firsts, ih, List.filter_append, List.filter_filter,
        List.cons_append]
      simp only [hnew]

theorem firsts_concat_of_exists {ps : List Program} {p : Program}
    (h : ∃ q ∈ ps, q.name = p.name) : firsts (ps ++ [p]) = firsts ps := by
  have hnone : ([p].filter fun q => ∀ r ∈ ps, r.name ≠ q.name) = [] := by simpa using h
  rw [firsts_append, show firsts [p] = [p] from rfl, hnone, List.append_nil]

theorem firsts_concat_of_forall {ps : List Program} {p : Program}
    (h : ∀ q ∈ ps, q.name ≠ p.name) : firsts (ps ++ [p]) = firsts ps ++ [p] := by
  have hall : ([p].filter fun q => ∀ r ∈ ps, r.name ≠ q.name) = [p] :=
    List.filter_eq_self.2 (by simpa using h)
  rw [firsts_append, show firsts [p] = [p] from rfl, hall]

end Program

/-! ### A sequence of insertions -/

namespace Script

/-- The script that an insertion leaves. If it is rejected, nothing changes. -/
def afterInsert (s : Script) (p : Program) : Script :=
  match s.insert p with
  | .ok next => next
  | .error _ => s

/-- The script that insertions one after another leave. -/
def insertAll (s : Script) (ps : List Program) : Script := ps.foldl afterInsert s

theorem insertAll_concat (s : Script) (ps : List Program) (p : Program) :
    s.insertAll (ps ++ [p]) = (s.insertAll ps).afterInsert p := by simp [insertAll]

theorem afterInsert_of_taken {s : Script} {p : Program} (h : p.name ∈ s.names) :
    s.afterInsert p = s := by
  rw [afterInsert, insert_eq_error_iff.2 ⟨rfl, h⟩]

theorem programs_afterInsert_of_free {s : Script} {p : Program} (h : p.name ∉ s.names) :
    (s.afterInsert p).programs.toList = s.programs.toList ++ [p] := by
  obtain ⟨next, hnext⟩ := exists_insert_iff.2 h
  rw [afterInsert, hnext, programs_of_insert hnext, Array.toList_push]

theorem mem_names_of_programs_eq {s : Script} {ps : List Program} {name : String}
    (h : s.programs.toList = Program.firsts ps) : name ∈ s.names ↔ ∃ p ∈ ps, p.name = name := by
  rw [names, h, List.mem_map]
  exact Program.exists_mem_firsts_iff

/-- **What insertions leave**: the programs that were inserted under their names first. -/
theorem programs_insertAll (ps : List Program) :
    (empty.insertAll ps).programs.toList = Program.firsts ps := by
  induction ps using List.reverseRecOn with
  | nil => rfl
  | append_singleton ps p ih =>
      rw [insertAll_concat]
      by_cases htaken : p.name ∈ (empty.insertAll ps).names
      · rw [afterInsert_of_taken htaken, ih,
          Program.firsts_concat_of_exists ((mem_names_of_programs_eq ih).1 htaken)]
      · have hnew : ∀ q ∈ ps, q.name ≠ p.name := fun q hq hname =>
          htaken ((mem_names_of_programs_eq ih).2 ⟨q, hq, hname⟩)
        rw [programs_afterInsert_of_free htaken, ih, Program.firsts_concat_of_forall hnew]

theorem mem_names_insertAll {ps : List Program} {name : String} :
    name ∈ (empty.insertAll ps).names ↔ ∃ p ∈ ps, p.name = name :=
  mem_names_of_programs_eq (programs_insertAll ps)

/-! ### The programs and the index -/

/-- The programs of a script and its index say the same. -/
structure Coherent (s : Script) : Prop where
  /-- The index leads to the place of each program under its name, and to no place out of range. -/
  index_eq_some_iff : ∀ name i, s.index[name]? = some i ↔
    ∃ h : i < s.programs.size, s.programs[i].name = name
  /-- Under a name, its program is found. -/
  find?_eq_some_iff : ∀ name p, s.find? name = some p ↔ p ∈ s.programs.toList ∧ p.name = name
  /-- A name is defined exactly if a program is found under it. -/
  contains_iff : ∀ name, s.contains name = true ↔ (s.find? name).isSome = true
  /-- All programs are counted. -/
  size_eq : s.size = s.programs.toList.length
  /-- The names are listed in the order of the programs. -/
  names_eq : s.names = s.programs.toList.map Program.name

/-- The index leads to the place of a program under its name, and to no place beyond. -/
theorem index_eq_some_iff {s : Script} {name : String} {i : Nat} :
    s.index[name]? = some i ↔ ∃ h : i < s.programs.size, s.programs[i].name = name := by
  rw [s.index_eq, Array.findIdx?_eq_some_iff_getElem]
  constructor
  · intro h
    obtain ⟨hi, hname, -⟩ := h
    exact ⟨hi, by simpa using hname⟩
  · intro h
    obtain ⟨hi, hname⟩ := h
    refine ⟨hi, by simpa using hname, fun j hj => ?_⟩
    -- An earlier program of that name would stand at the same place.
    have hne : s.programs[j].name ≠ name := by
      intro hother
      have hj' : j < s.names.length := by simp [names]; omega
      have hi' : i < s.names.length := by simp [names]; omega
      have hnames : s.names[j] = s.names[i] := by simp [names, hname, hother]
      exact absurd (s.nodup.getElem_inj_iff.1 hnames) (Nat.ne_of_lt hj)
    simpa using hne

theorem coherent (s : Script) : s.Coherent where
  index_eq_some_iff _ _ := index_eq_some_iff
  find?_eq_some_iff _ _ := by rw [find?_eq_some_iff, Array.mem_toList_iff]
  contains_iff name := by
    simp only [s.contains_iff, Option.isSome_iff_exists, find?_eq_some_iff]
  size_eq := Array.length_toList.symm
  names_eq := rfl

theorem eq_iff_toList_eq {s t : Script} : s = t ↔ s.programs.toList = t.programs.toList := by
  constructor
  · intro h
    rw [h]
  · intro h
    exact ext (Array.toList_inj.1 h)

/-- Comparing the indices too makes no difference. -/
theorem programs_eq_and_index_eq_iff {s t : Script} :
    s.programs = t.programs ∧ s.index = t.index ↔ s.programs.toList = t.programs.toList := by
  constructor
  · intro h
    rw [h.1]
  · intro h
    obtain rfl := eq_iff_toList_eq.2 h
    exact ⟨rfl, rfl⟩

theorem afterInsert_eq_self_iff {s : Script} {p : Program} :
    s.afterInsert p = s ↔ p.name ∈ s.names := by
  constructor
  · intro h
    by_contra hfree
    have hprograms := programs_afterInsert_of_free hfree
    rw [h] at hprograms
    simp at hprograms
  · exact afterInsert_of_taken

/-- **The programs and the index of a script never disagree**, whatever was inserted and in which
order. The programs are those that were inserted under their names first, and the index says the
same as they do. A further insertion hands its program back exactly if an earlier one had its name,
and exactly then it changes nothing. What insertions leave is the same, index and all, as soon as
the programs are. -/
theorem insertAll_coherent (ps : List Program) :
    let s := empty.insertAll ps
    s.programs.toList = Program.firsts ps ∧ s.Coherent ∧
    (∀ p q, s.insert p = .error q ↔ q = p ∧ ∃ r ∈ ps, r.name = p.name) ∧
    (∀ p, s.afterInsert p = s ↔ ∃ r ∈ ps, r.name = p.name) ∧
    ∀ qs, let t := empty.insertAll qs
      (t = s ↔ t.programs.toList = s.programs.toList) ∧
      (t.programs = s.programs ∧ t.index = s.index ↔ t.programs.toList = s.programs.toList) := by
  intro s
  refine ⟨programs_insertAll ps, s.coherent, fun p q => ?_, fun p => ?_, fun qs =>
    ⟨eq_iff_toList_eq, programs_eq_and_index_eq_iff⟩⟩
  · rw [insert_eq_error_iff, mem_names_insertAll]
  · rw [afterInsert_eq_self_iff, mem_names_insertAll]

end Script

end GridLang
