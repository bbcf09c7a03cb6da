import GridLang.Grid
import GridLang.Text.Lines

/-!
# GridLang.Grid.Layout

**The grid as plain text**: a header line with the column numbers, then one line for each row that
is in use, with the cells of the columns that are in use. A row starts with its label, `[row]`;
columns are set off by ` | ` and aligned to the right. A place that is not set is left blank.

The width of a column is the largest size in octets (UTF-8) of its number and its cells, while a
field is filled up to that width in characters; the two agree for ASCII texts.
-/

namespace GridLang

namespace Grid

/-- The label of a row. -/
def rowLabel (row : UInt64) : String := "[" ++ Numeral.ofUInt64 row ++ "]"

/-- The largest of some sizes. -/
def largest (sizes : List Nat) : Nat := sizes.foldl max 0

/-- The width of the labels. -/
def labelWidth (g : Grid) : Nat := largest (g.rows.map fun row => (rowLabel row).utf8ByteSize)

/-- The width of a column: the largest size of its number and of what is shown in it. -/
def columnWidth (g : Grid) (col : UInt64) : Nat :=
  largest ((Numeral.ofUInt64 col).utf8ByteSize ::
    g.rows.map fun row => (g.shownAt ⟨row, col⟩).utf8ByteSize)

/-- One line: a label, and a field for each column. -/
def layoutLine (g : Grid) (label : String) (field : UInt64 → String) : String :=
  Text.alignLeft g.labelWidth label ++
    String.join (g.cols.map fun col => " | " ++ Text.alignRight (g.columnWidth col) (field col))

/-- The lines of a grid: the column numbers, then the rows. -/
def layoutLines (g : Grid) : List String :=
  g.layoutLine "" Numeral.ofUInt64 ::
    g.rows.map fun row => g.layoutLine (rowLabel row) fun col => g.shownAt ⟨row, col⟩

/-- The plain text of a grid. -/
def layout (g : Grid) : String :=
  if g.isEmpty then Text.unlines ["(memory is empty)"] else Text.unlines g.layoutLines

end Grid

end GridLang
