import Std.Data.ExtTreeMap
import Std.Data.ExtTreeSet
import GridLang.Address
import GridLang.Cell

/-!
# GridLang.Grid

**The grid**: a finite map from addresses to cells. Places are set one by one and never unset; a
place that was not set reads as the default cell, and reading it does not set it.

Design points:

* A grid holds an extensional tree map, so it is determined by what is set where: two grids are
  equal as soon as `get?` agrees on every address (`Grid.ext`), whatever the order in which they
  were built.
* `entries` lists the set places in ascending order of addresses. `rows` and `cols` are the sets
  of rows and columns in use, listed in ascending order.
* `get?_empty` and `get?_set` say what the operations do; everything else is stated through them.
-/

namespace GridLang

/-- A finite map from addresses to cells. -/
structure Grid where
  /-- The places that have been set. -/
  cells : Std.ExtTreeMap Address Cell
  deriving DecidableEq

namespace Grid

/-- The grid in which nothing is set. -/
def empty : Grid := ⟨∅⟩

instance : EmptyCollection Grid := ⟨empty⟩

instance : Inhabited Grid := ⟨empty⟩

/-- The cell at an address, if it has been set. -/
def get? (g : Grid) (a : Address) : Option Cell := g.cells[a]?

/-- The cell at an address; the number 0 where nothing was set. -/
def read (g : Grid) (a : Address) : Cell := (g.get? a).getD default

/-- What is shown at an address: nothing where nothing is set. -/
def shownAt (g : Grid) (a : Address) : String := ((g.get? a).map Cell.shown).getD ""

/-- Sets the cell at an address. -/
def set (g : Grid) (a : Address) (c : Cell) : Grid := ⟨g.cells.insert a c⟩

/-- Whether nothing is set. -/
def isEmpty (g : Grid) : Bool := g.cells.isEmpty

/-- The set places with their cells, in ascending order of addresses. -/
def entries (g : Grid) : List (Address × Cell) := g.cells.toList

/-- Sets each entry in turn, so that of two entries for one address the later one stays. -/
def setAll (g : Grid) (entries : List (Address × Cell)) : Grid :=
  entries.foldl (fun g (a, c) => g.set a c) g

/-- The grid got by setting each entry in turn. -/
def ofEntries (entries : List (Address × Cell)) : Grid := empty.setAll entries

/-- The rows in which something is set, in ascending order. -/
def rows (g : Grid) : List UInt64 := (Std.ExtTreeSet.ofList (g.cells.keys.map Address.row)).toList

/-- The columns in which something is set, in ascending order. -/
def cols (g : Grid) : List UInt64 := (Std.ExtTreeSet.ofList (g.cells.keys.map Address.col)).toList

/-! ## What the operations do to the cells -/

/-- A grid is determined by what is set where. -/
theorem ext {g h : Grid} (eq : ∀ a, g.get? a = h.get? a) : g = h := by
  cases g; cases h
  simp only [get?] at eq
  simpa using Std.ExtTreeMap.ext_getElem? eq

@[simp] theorem get?_empty (a : Address) : empty.get? a = none := by simp [get?, empty]

theorem get?_set (g : Grid) (a b : Address) (c : Cell) :
    (g.set a c).get? b = if a = b then some c else g.get? b := by
  simp [get?, set, Std.ExtTreeMap.getElem?_insert]

@[simp] theorem get?_set_self (g : Grid) (a : Address) (c : Cell) :
    (g.set a c).get? a = some c := by simp [get?_set]

@[simp] theorem read_empty (a : Address) : empty.read a = .number 0 := by simp [read]

@[simp] theorem setAll_nil (g : Grid) : g.setAll [] = g := rfl

@[simp] theorem setAll_cons (g : Grid) (a : Address) (c : Cell) (rest : List (Address × Cell)) :
    g.setAll ((a, c) :: rest) = (g.set a c).setAll rest := rfl

/-! ## What the views list -/

/-- An entry is listed exactly where its cell is set. -/
theorem mem_entries {g : Grid} {a : Address} {c : Cell} :
    (a, c) ∈ g.entries ↔ g.get? a = some c := by
  simp [entries, get?, Std.ExtTreeMap.mem_toList_iff_getElem?_eq_some]

/-- A row is listed exactly if something is set in it. -/
theorem mem_rows {g : Grid} {r : UInt64} : r ∈ g.rows ↔ ∃ c, (g.get? ⟨r, c⟩).isSome := by
  simp only [rows, Std.ExtTreeSet.mem_toList, Std.ExtTreeSet.mem_ofList, List.contains_iff_mem,
    List.mem_map, Std.ExtTreeMap.mem_keys, get?, Std.ExtTreeMap.isSome_getElem?_iff_mem]
  exact ⟨fun ⟨a, h, e⟩ => ⟨a.col, by subst e; exact h⟩, fun ⟨c, h⟩ => ⟨_, h, rfl⟩⟩

/-- A column is listed exactly if something is set in it. -/
theorem mem_cols {g : Grid} {c : UInt64} : c ∈ g.cols ↔ ∃ r, (g.get? ⟨r, c⟩).isSome := by
  simp only [cols, Std.ExtTreeSet.mem_toList, Std.ExtTreeSet.mem_ofList, List.contains_iff_mem,
    List.mem_map, Std.ExtTreeMap.mem_keys, get?, Std.ExtTreeMap.isSome_getElem?_iff_mem]
  exact ⟨fun ⟨a, h, e⟩ => ⟨a.row, by subst e; exact h⟩, fun ⟨r, h⟩ => ⟨_, h, rfl⟩⟩

/-- Entries are listed in ascending order, without repetition. -/
theorem pairwise_entries (g : Grid) : g.entries.Pairwise fun x y => compare x.1 y.1 = .lt :=
  Std.ExtTreeMap.ordered_keys_toList

/-- Rows are listed in ascending order, without repetition. -/
theorem pairwise_rows (g : Grid) : g.rows.Pairwise (· < ·) :=
  Std.ExtTreeSet.ordered_toList.imp Std.compare_eq_lt.1

/-- Columns are listed in ascending order, without repetition. -/
theorem pairwise_cols (g : Grid) : g.cols.Pairwise (· < ·) :=
  Std.ExtTreeSet.ordered_toList.imp Std.compare_eq_lt.1

/-- A grid is empty exactly if nothing is set. -/
theorem isEmpty_iff {g : Grid} : g.isEmpty = true ↔ ∀ a, g.get? a = none := by
  rw [isEmpty, Std.ExtTreeMap.isEmpty_iff]
  constructor
  · rintro h a
    rw [get?, h, Std.ExtTreeMap.getElem?_empty]
  · intro h
    exact congrArg cells (ext (h := empty) fun a => by rw [h, get?_empty])

end Grid

end GridLang
