import GridLang.Grid
import Mathlib.Data.List.Dedup
import Mathlib.Data.List.Nodup
import Mathlib.Data.List.Sort

/-!
# GridLang.Proofs.CanonicalGrid

**A grid is a canonical finite map**: what it holds, and nothing of how it was built. After setting
cells one by one, each place holds the cell that was set there last (`Grid.lastSet`), and all views
of the grid list just that (`Grid.Lists`). Two grids are equal as soon as they hold the same.

The same goes for a grid that is kept row by row (`RowMap`), in which a row is made when a cell of
it is set first. Two such grids could differ by a row that holds nothing; no such row is ever made,
and so the grid kept row by row is the same map, with the same views (`RowMap.Keeps`).
`Grid.ofEntries_canonical` puts this together for any cells set in any order.
-/

namespace GridLang

namespace Grid

/-! ### What setting one by one leaves -/

/-- The cell that is set last at an address, if one is set there. -/
def lastSet (entries : List (Address × Cell)) (a : Address) : Option Cell :=
  ((entries.filter fun e => e.1 = a).map Prod.snd).getLast?

theorem lastSet_cons (b : Address) (c : Cell) (rest : List (Address × Cell)) (a : Address) :
    lastSet ((b, c) :: rest) a = (lastSet rest a).or (if b = a then some c else none) := by
  by_cases hb : b = a
  · have hfilter : ((b, c) :: rest).filter (fun e => e.1 = a) =
        (b, c) :: rest.filter fun e => e.1 = a := List.filter_cons_of_pos (by simpa using hb)
    rw [lastSet, hfilter, List.map_cons, List.getLast?_cons, if_pos hb, lastSet]
    cases ((rest.filter fun e => e.1 = a).map Prod.snd).getLast? <;> rfl
  · have hfilter : ((b, c) :: rest).filter (fun e => e.1 = a) =
        rest.filter fun e => e.1 = a := List.filter_cons_of_neg (by simpa using hb)
    rw [lastSet, hfilter, if_neg hb, Option.or_none, lastSet]

theorem mem_of_lastSet {entries : List (Address × Cell)} {a : Address} {c : Cell}
    (h : lastSet entries a = some c) : (a, c) ∈ entries := by
  obtain ⟨⟨b, d⟩, hfound, rfl⟩ := List.mem_map.1 (List.mem_of_getLast? h)
  obtain ⟨hmem, hb⟩ := List.mem_filter.1 hfound
  obtain rfl : b = a := by simpa using hb
  exact hmem

theorem lastSet_eq_none_iff {entries : List (Address × Cell)} {a : Address} :
    lastSet entries a = none ↔ ∀ c, (a, c) ∉ entries := by
  rw [lastSet, List.getLast?_eq_none_iff, List.map_eq_nil_iff, List.filter_eq_nil_iff]
  constructor
  · intro h c hc
    exact h (a, c) hc (by simp)
  · intro h e he heq
    obtain ⟨b, c⟩ := e
    obtain rfl : b = a := by simpa using heq
    exact h c he

/-- Of entries with distinct addresses, each one is the last at its address. -/
theorem lastSet_of_mem {entries : List (Address × Cell)} {a : Address} {c : Cell}
    (hnodup : (entries.map Prod.fst).Nodup) (h : (a, c) ∈ entries) :
    lastSet entries a = some c := by
  cases hlast : lastSet entries a with
  | none => exact absurd h (lastSet_eq_none_iff.1 hlast c)
  | some d =>
      have heq := List.inj_on_of_nodup_map hnodup (mem_of_lastSet hlast) h rfl
      exact congrArg some (congrArg Prod.snd heq)

/-- **What setting cells leaves**: the cell set last at an address, or else what was there. -/
theorem get?_setAll (g : Grid) (entries : List (Address × Cell)) (a : Address) :
    (g.setAll entries).get? a = (lastSet entries a).or (g.get? a) := by
  induction entries generalizing g with
  | nil => rfl
  | cons entry rest ih =>
      obtain ⟨b, c⟩ := entry
      rw [setAll_cons, ih, lastSet_cons, get?_set, Option.or_assoc]
      by_cases hb : b = a
      · rw [if_pos hb, if_pos hb, Option.some_or]
      · rw [if_neg hb, if_neg hb, Option.none_or]

theorem get?_ofEntries (entries : List (Address × Cell)) (a : Address) :
    (ofEntries entries).get? a = lastSet entries a := by
  rw [ofEntries, get?_setAll, get?_empty, Option.or_none]

theorem get?_setAll_of_not_mem {entries : List (Address × Cell)} {a : Address} (g : Grid)
    (h : ∀ c, (a, c) ∉ entries) : (g.setAll entries).get? a = g.get? a := by
  rw [get?_setAll, lastSet_eq_none_iff.2 h, Option.none_or]

theorem get?_setAll_of_mem {entries : List (Address × Cell)} {a : Address} {c : Cell} (g : Grid)
    (hnodup : (entries.map Prod.fst).Nodup) (h : (a, c) ∈ entries) :
    (g.setAll entries).get? a = some c := by
  rw [get?_setAll, lastSet_of_mem hnodup h, Option.some_or]

theorem nodup_entries (g : Grid) : (g.entries.map Prod.fst).Nodup := by
  rw [List.Nodup, List.pairwise_map]
  refine g.pairwise_entries.imp ?_
  intro x y hlt heq
  rw [heq, Std.compare_self] at hlt
  cases hlt

/-- **Every grid is left by setting cells**: those that it lists. -/
theorem ofEntries_entries (g : Grid) : ofEntries g.entries = g := by
  refine ext fun a => ?_
  rw [get?_ofEntries]
  cases hc : g.get? a with
  | some c => exact lastSet_of_mem g.nodup_entries (mem_entries.2 hc)
  | none =>
      refine lastSet_eq_none_iff.2 fun c hmem => ?_
      rw [mem_entries.1 hmem] at hc
      cases hc

theorem eq_iff_get?_eq {g h : Grid} : g = h ↔ ∀ a, g.get? a = h.get? a := by
  constructor
  · intro heq a
    rw [heq]
  · exact ext

/-! ### The views -/

variable (g : Grid)

/-- There are no rows exactly if nothing is set. -/
theorem rows_eq_nil_iff : g.rows = [] ↔ g.isEmpty = true := by
  rw [isEmpty_iff, List.eq_nil_iff_forall_not_mem]
  constructor
  · intro h a
    have hrow := h a.row
    rw [mem_rows, not_exists] at hrow
    simpa using hrow a.col
  · intro h row hrow
    rw [mem_rows] at hrow
    obtain ⟨col, hset⟩ := hrow
    simp [h] at hset

/-- There are no columns exactly if nothing is set. -/
theorem cols_eq_nil_iff : g.cols = [] ↔ g.isEmpty = true := by
  rw [isEmpty_iff, List.eq_nil_iff_forall_not_mem]
  constructor
  · intro h a
    have hcol := h a.col
    rw [mem_cols, not_exists] at hcol
    simpa using hcol a.row
  · intro h col hcol
    rw [mem_cols] at hcol
    obtain ⟨row, hset⟩ := hcol
    simp [h] at hset

/-- There are no entries exactly if nothing is set. -/
theorem entries_eq_nil_iff : g.entries = [] ↔ g.isEmpty = true := by
  rw [isEmpty_iff, List.eq_nil_iff_forall_not_mem]
  constructor
  · intro h a
    rw [Option.eq_none_iff_forall_ne_some]
    exact fun c hc => h (a, c) (mem_entries.2 hc)
  · intro h entry hentry
    obtain ⟨a, c⟩ := entry
    rw [mem_entries, h] at hentry
    cases hentry

/-- All views of a grid list what is set, and nothing else: `cell` says what is set where. -/
structure Lists (g : Grid) (cell : Address → Option Cell) : Prop where
  /-- Each place holds its cell, or nothing. -/
  get?_eq : ∀ a, g.get? a = cell a
  /-- The entries are the set places with their cells. -/
  mem_entries : ∀ a c, (a, c) ∈ g.entries ↔ cell a = some c
  /-- They are in ascending order of rows, and of columns within a row, so none is listed twice. -/
  pairwise_entries : g.entries.Pairwise fun x y =>
    x.1.row < y.1.row ∨ x.1.row = y.1.row ∧ x.1.col < y.1.col
  /-- The rows are those in which something is set. -/
  mem_rows : ∀ r, r ∈ g.rows ↔ ∃ c, (cell ⟨r, c⟩).isSome
  /-- They are in ascending order. -/
  pairwise_rows : g.rows.Pairwise (· < ·)
  /-- The columns are those in which something is set. -/
  mem_cols : ∀ c, c ∈ g.cols ↔ ∃ r, (cell ⟨r, c⟩).isSome
  /-- They are in ascending order. -/
  pairwise_cols : g.cols.Pairwise (· < ·)
  /-- Nothing is set exactly if no column is listed. -/
  isEmpty_iff_cols : g.isEmpty = true ↔ g.cols = []
  /-- Nothing is set exactly if no entry is listed. -/
  isEmpty_iff_entries : g.isEmpty = true ↔ g.entries = []

theorem lists_get? : g.Lists g.get? where
  get?_eq _ := rfl
  mem_entries _ _ := mem_entries
  pairwise_entries := g.pairwise_entries.imp Address.compare_eq_lt_iff.1
  mem_rows _ := mem_rows
  pairwise_rows := g.pairwise_rows
  mem_cols _ := mem_cols
  pairwise_cols := g.pairwise_cols
  isEmpty_iff_cols := g.cols_eq_nil_iff.symm
  isEmpty_iff_entries := g.entries_eq_nil_iff.symm

end Grid

/-! ### Grids kept row by row -/

/-- The cells of one row, by their columns. -/
abbrev Row := Std.ExtTreeMap UInt64 Cell

/-- A grid kept row by row. -/
structure RowMap where
  /-- The rows that have been made, by their numbers. -/
  rows : Std.ExtTreeMap UInt64 Row

namespace RowMap

/-- The grid without rows. -/
def empty : RowMap := ⟨∅⟩

/-- The cells of a row; none if the row has not been made. -/
def row (m : RowMap) (r : UInt64) : Row := m.rows[r]?.getD ∅

/-- The cell at an address, if it has been set. -/
def get? (m : RowMap) (a : Address) : Option Cell := (m.row a.row)[a.col]?

/-- Sets the cell at an address, and makes its row if there is none. -/
def set (m : RowMap) (a : Address) (c : Cell) : RowMap :=
  ⟨m.rows.insert a.row ((m.row a.row).insert a.col c)⟩

/-- Sets each entry in turn. -/
def setAll (m : RowMap) (entries : List (Address × Cell)) : RowMap :=
  entries.foldl (fun m (a, c) => m.set a c) m

/-- Whether no row has a cell. -/
def isEmpty (m : RowMap) : Bool := m.rows.toList.all fun (_, cells) => cells.isEmpty

/-- The set places with their cells, row by row. -/
def entries (m : RowMap) : List (Address × Cell) :=
  m.rows.toList.flatMap fun (r, cells) => cells.toList.map fun (col, c) => (⟨r, col⟩, c)

/-- The columns of all rows, sorted and without repetition. -/
def cols (m : RowMap) : List UInt64 :=
  ((m.rows.toList.flatMap fun (_, cells) => cells.keys).mergeSort (· ≤ ·)).dedup

/-! ### What setting does to the rows -/

theorem row_set (m : RowMap) (a : Address) (c : Cell) (r : UInt64) :
    (m.set a c).row r = if a.row = r then (m.row a.row).insert a.col c else m.row r := by
  simp only [row, set, Std.ExtTreeMap.getElem?_insert, Std.compare_eq_iff_eq]
  split <;> rfl

theorem get?_set (m : RowMap) (a b : Address) (c : Cell) :
    (m.set a c).get? b = if a = b then some c else m.get? b := by
  obtain ⟨r, col⟩ := a
  obtain ⟨s, col'⟩ := b
  rw [get?, row_set]
  by_cases hrow : r = s
  · subst hrow
    simp [get?, Std.ExtTreeMap.getElem?_insert]
  · simp [get?, hrow]

/-- A grid kept row by row holds the same as a grid, and has no row without a cell. -/
structure Keeps (m : RowMap) (g : Grid) : Prop where
  get?_eq : ∀ a, m.get? a = g.get? a
  row_ne_empty : ∀ r : UInt64, m.rows[r]? ≠ some (∅ : Row)

theorem keeps_empty : empty.Keeps .empty where
  get?_eq a := by simp [get?, row, empty]
  row_ne_empty r := by simp [empty]

/-- **Setting a cell** keeps this: a row is made with a cell in it. -/
theorem Keeps.set {m : RowMap} {g : Grid} (h : m.Keeps g) (a : Address) (c : Cell) :
    (m.set a c).Keeps (g.set a c) where
  get?_eq b := by rw [get?_set, Grid.get?_set, h.get?_eq]
  row_ne_empty r := by
    rw [RowMap.set, Std.ExtTreeMap.getElem?_insert]
    split
    · exact fun heq => Std.ExtTreeMap.insert_ne_empty (Option.some.inj heq)
    · exact h.row_ne_empty r

/-- So does setting cells one by one. -/
theorem Keeps.setAll {m : RowMap} {g : Grid} (h : m.Keeps g) (entries : List (Address × Cell)) :
    (m.setAll entries).Keeps (g.setAll entries) := by
  induction entries generalizing m g with
  | nil => exact h
  | cons entry rest ih =>
      obtain ⟨a, c⟩ := entry
      exact ih (h.set a c)

/-! ### The views of a grid kept row by row -/

variable {m : RowMap}

theorem mem_entries_iff {a : Address} {c : Cell} : (a, c) ∈ m.entries ↔ m.get? a = some c := by
  simp only [entries, List.mem_flatMap, Prod.exists, List.mem_map,
    Std.ExtTreeMap.mem_toList_iff_getElem?_eq_some]
  constructor
  · intro h
    obtain ⟨r, cells, hrow, col, d, hcell, heq⟩ := h
    cases heq
    rw [get?, row, hrow]
    exact hcell
  · intro h
    cases hrow : m.rows[a.row]? with
    | none => simp [get?, row, hrow] at h
    | some cells =>
        rw [get?, row, hrow] at h
        exact ⟨a.row, cells, hrow, a.col, c, h, rfl⟩

theorem pairwise_entries : m.entries.Pairwise fun x y => compare x.1 y.1 = .lt := by
  simp only [Address.compare_eq_lt_iff]
  refine List.pairwise_flatMap.2 ⟨?_, ?_⟩
  · -- Within a row, the columns are in order.
    intro entry hentry
    obtain ⟨r, cells⟩ := entry
    refine List.pairwise_map.2 (cells.ordered_keys_toList.imp ?_)
    intro x y hlt
    exact .inr ⟨rfl, Std.compare_eq_lt.1 hlt⟩
  · -- The rows themselves are in order.
    refine m.rows.ordered_keys_toList.imp ?_
    intro x y hlt e he f hf
    obtain ⟨e', -, rfl⟩ := List.mem_map.1 he
    obtain ⟨f', -, rfl⟩ := List.mem_map.1 hf
    exact .inl (Std.compare_eq_lt.1 hlt)

theorem mem_cols_iff {col : UInt64} : col ∈ m.cols ↔ ∃ r, (m.get? ⟨r, col⟩).isSome = true := by
  simp only [cols, List.mem_dedup, List.mem_mergeSort, List.mem_flatMap, Prod.exists,
    Std.ExtTreeMap.mem_toList_iff_getElem?_eq_some, Std.ExtTreeMap.mem_keys]
  constructor
  · intro h
    obtain ⟨r, cells, hrow, hcol⟩ := h
    refine ⟨r, ?_⟩
    rw [get?, row, hrow]
    exact Std.ExtTreeMap.isSome_getElem?_iff_mem.2 hcol
  · intro h
    obtain ⟨r, hset⟩ := h
    cases hrow : m.rows[r]? with
    | none => simp [get?, row, hrow] at hset
    | some cells =>
        rw [get?, row, hrow] at hset
        exact ⟨r, cells, hrow, Std.ExtTreeMap.isSome_getElem?_iff_mem.1 hset⟩

theorem pairwise_cols : m.cols.Pairwise (· < ·) := by
  have hsorted : ((m.rows.toList.flatMap fun (_, cells) => cells.keys).mergeSort
      (· ≤ ·)).Pairwise fun a b => decide (a ≤ b) = true :=
    List.pairwise_mergeSort
      (fun a b c hab hbc => by
        simpa using UInt64.le_trans (by simpa using hab) (by simpa using hbc))
      (fun a b => by simpa using UInt64.le_total a b) _
  have hle : m.cols.Pairwise (· ≤ ·) :=
    (hsorted.sublist (List.dedup_sublist _)).imp fun h => by simpa using h
  exact (hle.and (List.nodup_dedup _)).imp fun h => UInt64.lt_of_le_of_ne h.1 h.2

/-- A row that has been made has a cell. -/
theorem Keeps.isSome_row_iff {g : Grid} (h : m.Keeps g) {r : UInt64} :
    m.rows[r]?.isSome = true ↔ ∃ col, (g.get? ⟨r, col⟩).isSome = true := by
  simp only [← h.get?_eq]
  constructor
  · intro hmade
    obtain ⟨cells, hrow⟩ := Option.isSome_iff_exists.1 hmade
    by_contra hnone
    refine h.row_ne_empty r (hrow.trans (congrArg some (Std.ExtTreeMap.ext_getElem? fun col => ?_)))
    have hcol := not_exists.1 hnone col
    rw [get?, row, hrow] at hcol
    simpa using hcol
  · intro hset
    obtain ⟨col, hcol⟩ := hset
    cases hrow : m.rows[r]? with
    | none => simp [get?, row, hrow] at hcol
    | some cells => rfl

theorem Keeps.keys_rows_eq {g : Grid} (h : m.Keeps g) : m.rows.keys = g.rows := by
  have hkeys : m.rows.keys.Pairwise (· < ·) := m.rows.ordered_keys.imp Std.compare_eq_lt.1
  refine hkeys.eq_of_mem_iff g.pairwise_rows fun r => ?_
  rw [Std.ExtTreeMap.mem_keys, ← Std.ExtTreeMap.isSome_getElem?_iff_mem, h.isSome_row_iff,
    Grid.mem_rows]

theorem Keeps.cols_eq {g : Grid} (h : m.Keeps g) : m.cols = g.cols := by
  refine m.pairwise_cols.eq_of_mem_iff g.pairwise_cols fun col => ?_
  simp only [mem_cols_iff, Grid.mem_cols, h.get?_eq]

theorem Keeps.entries_eq {g : Grid} (h : m.Keeps g) : m.entries = g.entries := by
  have hasymm : Std.Asymm fun x y : Address × Cell => compare x.1 y.1 = .lt :=
    ⟨fun x y hxy hyx => by
      have hswap : compare y.1 x.1 = (compare x.1 y.1).swap := Std.OrientedCmp.eq_swap
      rw [hswap, hxy] at hyx
      cases hyx⟩
  have hantisymm : Std.Antisymm fun x y : Address × Cell => compare x.1 y.1 = .lt :=
    ⟨fun x y hxy hyx => absurd hyx (hasymm.asymm x y hxy)⟩
  refine pairwise_entries.eq_of_mem_iff g.pairwise_entries fun entry => ?_
  obtain ⟨a, c⟩ := entry
  rw [mem_entries_iff, Grid.mem_entries, h.get?_eq]

theorem isEmpty_iff : m.isEmpty = true ↔ ∀ a, m.get? a = none := by
  simp only [isEmpty, List.all_eq_true, Prod.forall,
    Std.ExtTreeMap.mem_toList_iff_getElem?_eq_some, Std.ExtTreeMap.isEmpty_iff]
  constructor
  · intro h a
    cases hrow : m.rows[a.row]? with
    | none => simp [get?, row, hrow]
    | some cells => simp [get?, row, hrow, h a.row cells hrow]
  · intro h r cells hrow
    refine Std.ExtTreeMap.ext_getElem? fun col => ?_
    have hcol := h ⟨r, col⟩
    rw [get?, row, hrow] at hcol
    simpa using hcol

theorem Keeps.isEmpty_eq {g : Grid} (h : m.Keeps g) : m.isEmpty = g.isEmpty := by
  rw [Bool.eq_iff_iff, isEmpty_iff, Grid.isEmpty_iff]
  simp only [h.get?_eq]

/-- **Grids kept row by row that hold the same are equal**: they have made the same rows. -/
theorem Keeps.eq {m' : RowMap} {g : Grid} (h : m.Keeps g) (h' : m'.Keeps g) : m = m' := by
  have hrow : ∀ r, m.row r = m'.row r := fun r =>
    Std.ExtTreeMap.ext_getElem? fun col => (h.get?_eq ⟨r, col⟩).trans (h'.get?_eq ⟨r, col⟩).symm
  have hrows : m.rows = m'.rows := by
    refine Std.ExtTreeMap.ext_getElem? fun r => ?_
    have hmade : m.rows[r]?.isSome = true ↔ m'.rows[r]?.isSome = true :=
      h.isSome_row_iff.trans h'.isSome_row_iff.symm
    have heq := hrow r
    rw [row, row] at heq
    cases hm : m.rows[r]? with
    | none =>
        cases hm' : m'.rows[r]? with
        | none => rfl
        | some cells' => simp [hm, hm'] at hmade
    | some cells =>
        cases hm' : m'.rows[r]? with
        | none => simp [hm, hm'] at hmade
        | some cells' =>
            rw [hm, hm'] at heq
            exact congrArg some heq
  cases m
  cases m'
  exact congrArg RowMap.mk hrows

end RowMap

/-- **A grid is a canonical finite map.** Let cells be set one by one, in any order and at any
addresses. Then each place holds the cell that was set there last, and all views of the grid list
just that. The grid kept row by row holds the same and has the same views; it has made exactly the
rows in which something is set, and none of them is without a cell.

So two grids are equal exactly if they hold the same at every address, whatever the orders in which
they were built; and this goes for all grids, as each one is left by setting some cells. -/
theorem Grid.ofEntries_canonical (sets : List (Address × Cell)) :
    let g := ofEntries sets
    let m := RowMap.empty.setAll sets
    g.Lists (lastSet sets) ∧
    (m.Keeps g ∧ m.rows.keys = g.rows ∧ m.cols = g.cols ∧ m.entries = g.entries ∧
      m.isEmpty = g.isEmpty) ∧
    (∀ others, let h := ofEntries others
      let n := RowMap.empty.setAll others
      (g = h ↔ ∀ a, g.get? a = h.get? a) ∧ (m = n ↔ ∀ a, m.get? a = n.get? a)) ∧
    ∀ h : Grid, ∃ others, ofEntries others = h := by
  intro g m
  have hkeeps : m.Keeps g := RowMap.keeps_empty.setAll sets
  have hlast : g.get? = lastSet sets := funext (get?_ofEntries sets)
  refine ⟨hlast ▸ g.lists_get?, ⟨hkeeps, hkeeps.keys_rows_eq, hkeeps.cols_eq, hkeeps.entries_eq,
    hkeeps.isEmpty_eq⟩, ?_, fun h => ⟨h.entries, h.ofEntries_entries⟩⟩
  intro others h n
  refine ⟨eq_iff_get?_eq, ?_⟩
  constructor
  · intro heq a
    rw [heq]
  · intro hget
    have hother : n.Keeps h := RowMap.keeps_empty.setAll others
    have hgrid : h = g := ext fun a => by rw [← hother.get?_eq, ← hkeeps.get?_eq, hget]
    exact hkeeps.eq (hgrid ▸ hother)

end GridLang
