import GridLang.Proofs.Reachability
import Mathlib.Data.List.Perm.Subperm

/-!
# GridLang.Proofs.CallDepth

**The depth limit is reported only for calls that are nested so deep.** When a run fails because of
the depth limit `D`, the open programs and the one that is called form a path of `D + 2` defined
programs, each of which has an instruction that calls the next one (`Script.CallPath`). Such a path
repeats a program if there are no more than `D + 1` of them, so calls would lead in a circle. Without
circles, a depth limit as large as the number of programs less one is never exceeded.

* `CallChain.isChain_names`: the chain of open programs, read as a chain of names.
* `exists_failed_of_run`: an error of a run is that of a step, in a well-formed state.
* `CallPath.nodup`: where calls do not lead in a circle, no path meets a program twice.
-/

namespace GridLang

namespace Script

/-- Names of defined programs, each of which may call the next one. -/
structure CallPath (s : Script) (path : List String) : Prop where
  defined : ∀ name ∈ path, name ∈ s.names
  calls : path.IsChain s.MayCall

/-- Calls that start at a program of this name never come back to a name. -/
def AcyclicFrom (s : Script) (first : String) : Prop :=
  ∀ name, s.Reachable first name → ¬ Relation.TransGen s.MayCall name name

theorem mem_names_of_find? {s : Script} {name : String} {p : Program} (h : s.find? name = some p) :
    name ∈ s.names := by
  obtain ⟨hp, rfl⟩ := find?_eq_some_iff.1 h
  exact List.mem_map_of_mem (Array.mem_toList_iff.2 hp)

/-- **A path never meets a program twice** where calls do not lead in a circle. -/
theorem CallPath.nodup {s : Script} {first : String} {path : List String} (h : s.CallPath path)
    (hfirst : path.head? = some first) (hacyclic : s.AcyclicFrom first) : path.Nodup := by
  cases path with
  | nil => exact .nil
  | cons name rest =>
      obtain rfl : name = first := Option.some.inj hfirst
      have hcalls : (name :: rest).Pairwise (Relation.TransGen s.MayCall) :=
        List.isChain_iff_pairwise.1 (h.calls.imp fun _ _ hcall => .single hcall)
      have hreach : ∀ n ∈ name :: rest, s.Reachable name n := by
        intro n hn
        rcases List.mem_cons.1 hn with rfl | hn
        · exact .refl
        · exact ((List.pairwise_cons.1 hcalls).1 n hn).to_reflTransGen
      refine hcalls.imp_of_mem ?_
      rintro a b ha - hab rfl
      exact hacyclic a (hreach a ha) hab

/-- A path that meets no program twice is no longer than the script. -/
theorem CallPath.length_le {s : Script} {path : List String} (h : s.CallPath path)
    (hnodup : path.Nodup) : path.length ≤ s.size := by
  have hle := (hnodup.subperm h.defined).length_le
  rwa [names, List.length_map, Array.length_toList] at hle

end Script

namespace Machine

/-! ### The open programs at a failure -/

/-- **Open programs** call one another, from the outermost one inwards. -/
theorem CallChain.isChain_names {m : Machine} {first : String} {chain : List Frame}
    (h : m.CallChain first chain) :
    (chain.map fun f => f.program.name).IsChain
      fun inner outer => m.script.MayCall outer inner := by
  rw [List.isChain_map]
  refine h.linked.imp_of_mem_imp ?_
  intro inner outer _ houter hwaits
  obtain ⟨i, hi, ht⟩ := hwaits.calls
  exact ⟨outer.program, h.defined outer houter, i, Array.mem_of_getElem? hi, ht⟩

theorem CallChain.mem_names {m : Machine} {first : String} {chain : List Frame}
    (h : m.CallChain first chain) : ∀ f ∈ chain, f.program.name ∈ m.script.names := by
  intro f hf
  exact Script.mem_names_of_find? (h.defined f hf)

section

variable {m : Machine} {first : String} {s t : State}

/-- An error of a run is that of a step. -/
theorem exists_failed_of_finish {e : RunError} (hs : m.WellFormed first s)
    (h : (m.finish s).error? = some e) :
    ∃ u v, m.WellFormed first u ∧ m.step u = (.failed e, v) := by
  induction s using finish.induct m with
  | case1 s s' hstep ih =>
      rw [finish_of_running hstep] at h
      have hs' := hs.step
      rw [hstep] at hs'
      exact ih hs' h
  | case2 s s' hstep =>
      rw [finish_of_done hstep] at h
      cases h
  | case3 s e' s' hstep =>
      rw [finish_of_failed hstep] at h
      cases h
      exact ⟨s, s', hs, hstep⟩

theorem exists_failed_of_run {g : Grid} {e : RunError} (h : (m.run first g).error? = some e) :
    e = .undefinedStart first ∨ ∃ u v, m.WellFormed first u ∧ m.step u = (.failed e, v) := by
  cases hfind : m.script.find? first with
  | none =>
      rw [run_of_find?_eq_none hfind] at h
      cases h
      exact .inl rfl
  | some p =>
      have hstart := start_of_find? hfind g
      rw [run_of_start hstart] at h
      exact .inr (exists_failed_of_finish (.start hstart) h)

/-- **A step that exceeds the depth limit** ends a path of calls from the first program, which is as
long as the limit allows and one call longer. -/
theorem exists_callPath_of_step {caller : String} {limit : Nat} (hs : m.WellFormed first s)
    (h : m.step s = (.failed (.depthExceeded caller limit), t)) :
    limit = m.limits.maxDepth ∧ ∃ path, m.script.CallPath path ∧
      path.length = m.limits.maxDepth + 2 ∧ path.head? = some first ∧
      path[m.limits.maxDepth]? = some caller := by
  cases move_of_step h with
  | @fail i _ hi hl hfault =>
      cases hfault with
      | @depthExceeded _ target p hcall hp hd =>
          refine ⟨rfl, ?_⟩
          have hdepth : s.frames.length = m.limits.maxDepth := by
            rw [← State.depth_eq]
            exact Nat.le_antisymm hs.depth_le hd
          have hlast : m.script.MayCall s.current.name target :=
            ⟨s.current, hs.chain.defined _ List.mem_cons_self, i, Array.mem_of_getElem? hi,
              hcall.target?_eq⟩
          -- From the called program outwards, and then turned round.
          refine ⟨(target :: s.chain.map fun f => f.program.name).reverse, ⟨?_, ?_⟩, ?_, ?_, ?_⟩
          · intro name hname
            rw [List.mem_reverse, List.mem_cons, List.mem_map] at hname
            rcases hname with rfl | ⟨f, hf, rfl⟩
            · exact Script.mem_names_of_find? hp
            · exact hs.chain.mem_names f hf
          · rw [List.isChain_reverse]
            exact List.isChain_cons_cons.2 ⟨hlast, hs.chain.isChain_names⟩
          · simp [State.chain, hdepth]
          · have hout := hs.chain.outermost
            rw [List.head?_reverse, State.chain, List.map_cons, List.getLast?_cons_cons]
            exact hout
          · simp [State.chain, hdepth]

end

/-! ### Whole runs -/

/-- **The depth limit is reported only for calls that are nested so deep.** If a run under the depth
limit `depth` ends with the error of that limit, then there are defined programs from the first one
on, each of which may call the next, as many as `depth + 2`, and the error names the last but one. So
if there are at most `depth + 1` programs, and calls do not lead in a circle, then no run ends like
this, from any grid and under any step limit. -/
theorem run_depthExceeded (s : Script) (first : String) (depth : Nat) :
    (∀ maxSteps g caller limit,
      ((Machine.mk s ⟨depth, maxSteps⟩).run first g).error? = some (.depthExceeded caller limit) →
        limit = depth ∧ ∃ path, s.CallPath path ∧ path.length = depth + 2 ∧
          path.head? = some first ∧ path[depth]? = some caller) ∧
    (s.size ≤ depth + 1 → s.AcyclicFrom first → ∀ maxSteps g caller limit,
      ((Machine.mk s ⟨depth, maxSteps⟩).run first g).error? ≠
        some (.depthExceeded caller limit)) := by
  have hpath : ∀ maxSteps g caller limit,
      ((Machine.mk s ⟨depth, maxSteps⟩).run first g).error? = some (.depthExceeded caller limit) →
        limit = depth ∧ ∃ path, s.CallPath path ∧ path.length = depth + 2 ∧
          path.head? = some first ∧ path[depth]? = some caller := by
    intro maxSteps g caller limit h
    rcases exists_failed_of_run h with hstart | ⟨u, v, hu, hstep⟩
    · cases hstart
    · exact exists_callPath_of_step hu hstep
  refine ⟨hpath, ?_⟩
  intro hsize hacyclic maxSteps g caller limit h
  obtain ⟨-, path, hcalls, hlength, hfirst, -⟩ := hpath maxSteps g caller limit h
  have hle := hcalls.length_le (hcalls.nodup hfirst hacyclic)
  omega

/-- A program that calls itself exceeds the limit of one nested call. Three programs of which one
calls another do not exceed a limit of two. -/
theorem run_depthExceeded_endless :
    (((Machine.mk .endless ⟨1, none⟩).run "loop" ∅).error? = some (.depthExceeded "loop" 1) ∧
      ∃ path, Script.endless.CallPath path ∧ path.length = 3 ∧ path.head? = some "loop" ∧
        path[1]? = some "loop") ∧
    (Script.visit.size ≤ 3 ∧ Script.visit.AcyclicFrom "visitor" ∧
      ∀ g, ((Machine.mk .visit ⟨2, none⟩).run "visitor" g).error? ≠
        some (.depthExceeded "visitor" 2)) := by
  have hfails : ((Machine.mk .endless ⟨1, none⟩).run "loop" ∅).error? =
      some (.depthExceeded "loop" 1) := by
    -- A write, a call, a write and a call too deep.
    rw [run_of_start (start_endless _ ∅), (EndsAfter.next rfl (.next rfl (.next rfl
      (.last (by decide))))).finish_eq]
    decide
  have hacyclic : Script.visit.AcyclicFrom "visitor" := by
    intro name hname hcycle
    obtain ⟨before, hbefore, hlast⟩ := Relation.TransGen.tail'_iff.1 hcycle
    obtain ⟨after, hfirst, -⟩ := Relation.TransGen.head'_iff.1 hcycle
    -- Of the reachable programs, only the first one calls any, and none of these is the first.
    have hcalls : ∀ n ∈ ["visitor", "copy", "nowhere"], ∀ p ∈ Script.visit.find? n, ∀ i ∈ p.body,
        ∀ target ∈ i.target?, n = "visitor" ∧ target ≠ "visitor" := by decide
    have hcall : ∀ {a b}, Script.visit.Reachable "visitor" a → Script.visit.MayCall a b →
        a = "visitor" ∧ b ≠ "visitor" := by
      intro a b ha hab
      obtain ⟨p, hp, i, hi, ht⟩ := hab
      exact hcalls a (Script.mem_of_reachable_visit ha) p hp i hi b ht
    exact (hcall (hname.trans hbefore) hlast).2 (hcall hname hfirst).1
  have hsize : Script.visit.size ≤ 3 := by decide
  exact ⟨⟨hfails, ((run_depthExceeded .endless "loop" 1).1 none ∅ "loop" 1 hfails).2⟩, hsize,
    hacyclic, fun g => (run_depthExceeded .visit "visitor" 2).2 hsize hacyclic none g "visitor" 2⟩

end Machine

end GridLang
