import Mathlib.Data.List.Basic
import GridLang.Playground.Session
import GridLang.Proofs.CanonicalGrid
import GridLang.Proofs.RenderedHtml
import GridLang.Proofs.WrittenAddresses

/-!
# GridLang.Proofs.SubmittedGrid

**A form that comes back unedited.** `Html.inputs` reads the inputs of a written form. For the
form of a grid these are one for each row and column in use (`Grid.inputs_editor`), named for its
place, with what is shown there.

The name of a field is read back as its place (`Address.ofFieldName?_fieldName`) and an unedited
text is never compared with anything but itself, so taking such a field leaves the grid as it is
(`Grid.applyField_shownAt`). This holds whatever a cell shows: a text that looks like a number
stays a text, and a place that is not set stays unset.
-/

namespace GridLang

/-! ### Inputs of a written form -/

namespace Html

/-- The name and the text of an input. -/
def Tag.input? (tag : Tag) : Option (String × String) :=
  if tag.name = "input" then
    (tag.attributes.lookup "name").map fun name => (name, (tag.attributes.lookup "value").getD "")
  else none

/-- The names and the texts of the inputs in a written form, in document order. -/
def inputs (text : String) : List (String × String) := (readTags text.toList).filterMap Tag.input?

/-- The names and the texts of the inputs in a tree, in document order. -/
def inputsOf (t : Html) : List (String × String) := t.tags.filterMap Tag.input?

theorem inputs_render {t : Html} (h : t.WellNamed) : inputs t.render = t.inputsOf := by
  rw [inputs, readTags_render h, inputsOf]

@[simp] theorem inputsOf_text (s : String) : (text s).inputsOf = [] := rfl

/-- The inputs of an element that is no input are those of its contents. -/
theorem inputsOf_element {tag : String} (h : tag ≠ "input") (attributes : List (String × String))
    (contents : List Html) :
    (element tag attributes contents).inputsOf = contents.flatMap inputsOf := by
  have hopen : Tag.input? ⟨tag, attributes⟩ = none := if_neg h
  have hclose : Tag.input? ⟨"/" ++ tag, []⟩ = none := by
    refine if_neg fun e => ?_
    have e := congrArg String.toList e
    simp at e
  rw [inputsOf, tags, tagsAll_eq_flatMap, List.filterMap_cons_none hopen, List.filterMap_append,
    List.filterMap_cons_none hclose, List.filterMap_nil, List.append_nil, List.filterMap_flatMap]
  rfl

end Html

namespace Grid

open Html

variable (g : Grid)

/-! ### The form of a grid -/

theorem wellNamed_headingLine : g.headingLine.WellNamed := by
  simp [headingLine, IsName]

theorem wellNamed_inputLine (row : UInt64) : (g.inputLine row).WellNamed := by
  simp [inputLine, cellInput, IsName]

/-- All tags and attributes in the form of a grid have names. -/
theorem wellNamed_editor : g.editor.WellNamed := by
  unfold editor
  split
  · simp [IsName]
  · simp [IsName, wellNamed_headingLine, wellNamed_inputLine]

/-- The line of a row has one input for each column. -/
theorem inputs_inputLine (row : UInt64) :
    (g.inputLine row).inputsOf =
      g.cols.map fun col => (Address.fieldName ⟨row, col⟩, g.shownAt ⟨row, col⟩) := by
  have hcell (col : UInt64) : (element "td" [] [g.cellInput ⟨row, col⟩]).inputsOf =
      [(Address.fieldName ⟨row, col⟩, g.shownAt ⟨row, col⟩)] := by
    rw [inputsOf_element (by decide), List.flatMap_singleton]
    rfl
  rw [inputLine, inputsOf_element (by decide), List.flatMap_cons, inputsOf_element (by decide),
    List.flatMap_singleton, inputsOf_text, List.nil_append, List.flatMap_map]
  simp only [hcell, ← List.map_eq_flatMap]

/-- **The form of a grid** has one input for each row and column in use, in order of rows. It is
named for its place and holds what is shown there. -/
theorem inputs_editor :
    inputs g.editor.render = g.rows.flatMap fun row =>
      g.cols.map fun col => (Address.fieldName ⟨row, col⟩, g.shownAt ⟨row, col⟩) := by
  rw [inputs_render g.wellNamed_editor, editor]
  split
  next hempty =>
    rw [inputsOf_element (by decide), List.flatMap_singleton, inputsOf_text,
      g.rows_eq_nil_iff.2 hempty, List.flatMap_nil]
  next =>
    have hhead : (element "thead" [] [g.headingLine]).inputsOf = [] := by
      rw [inputsOf_element (by decide), List.flatMap_singleton, headingLine,
        inputsOf_element (by decide), List.flatMap_cons, List.flatMap_map]
      simp [inputsOf_element]
    rw [inputsOf_element (by decide), List.flatMap_cons, hhead, List.nil_append,
      List.flatMap_singleton, inputsOf_element (by decide), List.flatMap_map]
    simp only [inputs_inputLine]

/-! ### Fields that come back -/

/-- A field with what is shown at its place is not an edit. -/
theorem applyField_shownAt (a : Address) : g.applyField a.fieldName (g.shownAt a) = g := by
  rw [applyField, Address.ofFieldName?_fieldName]
  exact if_pos rfl

theorem applyField_of_mem_inputs {g : Grid} {field : String × String}
    (h : field ∈ inputs g.editor.render) : g.applyField field.1 field.2 = g := by
  rw [inputs_editor, List.mem_flatMap] at h
  obtain ⟨row, -, h⟩ := h
  rw [List.mem_map] at h
  obtain ⟨col, -, rfl⟩ := h
  exact g.applyField_shownAt ⟨row, col⟩

theorem applyFields_of_subset_inputs {g : Grid} {fields : List (String × String)}
    (h : fields ⊆ inputs g.editor.render) : g.applyFields fields = g := by
  induction fields with
  | nil => rfl
  | cons field fields ih =>
      rw [List.cons_subset] at h
      rw [applyFields_cons, applyField_of_mem_inputs h.1, ih h.2]

end Grid

namespace Playground

/-- **Submitting the grid unedited changes nothing.** The inputs of the form are one for each row
and column in use, row by row, each with what is shown at its place. Any fields among them, in any
order, left out or repeated, leave the session as it is. -/
theorem takeCells_unedited (s : Session) (fields : Fields)
    (h : fields ⊆ Html.inputs s.grid.editor.render) :
    (Html.inputs s.grid.editor.render = s.grid.rows.flatMap fun row =>
      s.grid.cols.map fun col => (Address.fieldName ⟨row, col⟩, s.grid.shownAt ⟨row, col⟩)) ∧
    s.takeCells fields = s := by
  refine ⟨s.grid.inputs_editor, ?_⟩
  rw [Session.takeCells, Grid.applyFields_of_subset_inputs h]

/-- A text that looks like a number, the number, markup, and a place that is not set. -/
theorem takeCells_unedited_mixed :
    let grid := Grid.ofEntries
      [(⟨1, 3⟩, .text "5"), (⟨2, 1⟩, .number 5), (⟨2, 3⟩, .text "<\"&amp;\n")]
    let s : Session := ⟨"a", "", "", grid, none⟩
    let fields :=
      [("cell-2-3", "<\"&amp;\n"), ("cell-1-3", "5"), ("cell-1-1", ""), ("cell-1-3", "5")]
    fields ⊆ Html.inputs grid.editor.render ∧
      Html.inputs grid.editor.render =
        [("cell-1-1", ""), ("cell-1-3", "5"), ("cell-2-1", "5"), ("cell-2-3", "<\"&amp;\n")] ∧
      s.takeCells fields = s := by
  intro grid s fields
  have hinputs : Html.inputs grid.editor.render =
      [("cell-1-1", ""), ("cell-1-3", "5"), ("cell-2-1", "5"), ("cell-2-3", "<\"&amp;\n")] := by
    rw [Grid.inputs_editor]
    decide +kernel
  have hsubset : fields ⊆ Html.inputs grid.editor.render := by
    rw [hinputs]
    simp [fields]
  exact ⟨hsubset, hinputs, (takeCells_unedited s fields hsubset).2⟩

end Playground

end GridLang
