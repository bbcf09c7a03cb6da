import GridLang.Grid
import GridLang.Html
import GridLang.Text.Cut

/-!
# GridLang.Grid.Editor

**The grid as a form**: a table with an input for each row and column in use, and what is
submitted from it.

The input of a place is named `cell-ROW-COLUMN` and holds what is shown there. A form comes back
with the texts of all its inputs, so a field counts as edited only if its text is not what is
shown; an unedited field leaves its place as it is, also one that is not set or that holds a text
which looks like a number.
-/

namespace GridLang

namespace Address

/-- What names of fields for places start with. -/
def fieldMark : String := "cell-"

/-- The name of the field for a place. -/
def fieldName (a : Address) : String :=
  fieldMark ++ Numeral.ofUInt64 a.row ++ "-" ++ Numeral.ofUInt64 a.col

/-- The place that a field is for, if it is for one. -/
def ofFieldName? (name : String) : Option Address := do
  let numbers ← fieldMark.toList.isPrefixOf? name.toList
  let (row, col) ← Text.cut '-' numbers
  let row ← (Numeral.readUInt64 row).toOption
  let col ← (Numeral.readUInt64 col).toOption
  return ⟨row, col⟩

end Address

namespace Grid

/-- The input for a place. -/
def cellInput (g : Grid) (a : Address) : Html :=
  .void "input"
    [("type", "text"), ("class", "memory-cell"), ("name", a.fieldName), ("value", g.shownAt a)]

/-- The line of column headings. -/
def headingLine (g : Grid) : Html :=
  .element "tr" []
    (.element "th" [] [] ::
      g.cols.map fun col => .element "th" [] [.text ("column " ++ Numeral.ofUInt64 col)])

/-- The line of a row. -/
def inputLine (g : Grid) (row : UInt64) : Html :=
  .element "tr" []
    (.element "th" [] [.text ("row " ++ Numeral.ofUInt64 row)] ::
      g.cols.map fun col => .element "td" [] [g.cellInput ⟨row, col⟩])

/-- The grid as a table of inputs. -/
def editor (g : Grid) : Html :=
  if g.isEmpty then .element "div" [("class", "memory-empty")] [.text "memory is empty"]
  else
    .element "table" [("class", "memory-table")]
      [.element "thead" [] [g.headingLine], .element "tbody" [] (g.rows.map g.inputLine)]

/-- Takes one submitted field. -/
def applyField (g : Grid) (name typed : String) : Grid :=
  match Address.ofFieldName? name with
  | none => g
  | some a => if typed = g.shownAt a then g else g.set a (Cell.ofTyped typed)

/-- Takes submitted fields in turn. -/
def applyFields (g : Grid) (fields : List (String × String)) : Grid :=
  fields.foldl (fun g (name, typed) => g.applyField name typed) g

@[simp] theorem applyFields_nil (g : Grid) : g.applyFields [] = g := rfl

@[simp] theorem applyFields_cons (g : Grid) (name typed : String)
    (fields : List (String × String)) :
    g.applyFields ((name, typed) :: fields) = (g.applyField name typed).applyFields fields := rfl

end Grid

end GridLang
