import Std.Data.ExtTreeMap
import GridLang.Text.Numeral

/-!
# GridLang.Address

**Addresses of the grid**: a row and a column, ordered by row and then by column.
-/

namespace GridLang

/-- A place of the grid. -/
structure Address where
  /-- The row. -/
  row : UInt64
  /-- The column. -/
  col : UInt64
  deriving Repr, DecidableEq

namespace Address

/-- Rows first, then columns. -/
instance : Ord Address := ⟨compareLex (compareOn row) (compareOn col)⟩

instance : Std.TransOrd Address :=
  inferInstanceAs (Std.TransCmp (compareLex (compareOn row) (compareOn col)))

instance : Std.LawfulEqOrd Address where
  eq_of_compare {a b} h := by
    have h : (compare a.row b.row).then (compare a.col b.col) = .eq := h
    rw [Ordering.then_eq_eq, Std.compare_eq_iff_eq, Std.compare_eq_iff_eq] at h
    cases a; cases b; simp_all

/-- The text form of an address: its two numbers in brackets, without blanks. -/
def text (a : Address) : String :=
  "[" ++ Numeral.ofUInt64 a.row ++ "," ++ Numeral.ofUInt64 a.col ++ "]"

/-- The order of addresses, said of their rows and columns. -/
theorem compare_eq_lt_iff {a b : Address} :
    compare a b = .lt ↔ a.row < b.row ∨ a.row = b.row ∧ a.col < b.col := by
  have h : compare a b = (compare a.row b.row).then (compare a.col b.col) := rfl
  rw [h, Ordering.then_eq_lt, Std.compare_eq_iff_eq, Std.compare_eq_lt, Std.compare_eq_lt]

end Address

end GridLang
