import GridLang.Playground.Page
import GridLang.Proofs.SubmittedGrid

/-!
# GridLang.Proofs.PageMarkup

**The markup of a page** does not depend on what people write. Without its texts and values, the
form of a grid is known from the number of its rows and columns (`Grid.bare_editor_congr`), and a
page from that form and from whether something is said about the last action
(`Playground.Session.bare_page_congr`). All that a page has beyond its bare tree is escaped.
-/

namespace GridLang

open Html

namespace Grid

/-! ### The bare form of a grid -/

theorem bare_headingLine (g : Grid) :
    g.headingLine.bare = .element "tr" []
      (.element "th" [] [] :: List.replicate g.cols.length (.element "th" [] [.text ""])) := by
  simp [headingLine, bare, bareAll, bareAttributes, bareAll_eq_map, Function.comp_def,
    List.map_const']

/-- An input without its values. -/
def bareInput : Html :=
  .void "input" [("type", ""), ("class", ""), ("name", ""), ("value", "")]

theorem bare_cellInput (g : Grid) (a : Address) : (g.cellInput a).bare = bareInput := by
  rw [cellInput, bare]
  rfl

theorem bare_inputLine (g : Grid) (row : UInt64) :
    (g.inputLine row).bare = .element "tr" []
      (.element "th" [] [.text ""] ::
        List.replicate g.cols.length (.element "td" [] [bareInput])) := by
  simp [inputLine, bare, bareAll, bareAttributes, bareAll_eq_map, Function.comp_def,
    bare_cellInput, List.map_const']

/-- The bare form of a grid is known from the number of rows and columns. -/
theorem bare_editor_congr {g h : Grid} (hrows : g.rows.length = h.rows.length)
    (hcols : g.cols.length = h.cols.length) : g.editor.bare = h.editor.bare := by
  have hempty : g.isEmpty = h.isEmpty := by
    rw [Bool.eq_iff_iff, ← rows_eq_nil_iff, ← rows_eq_nil_iff, ← List.length_eq_zero_iff, hrows,
      List.length_eq_zero_iff]
  have hbody : (g.rows.map g.inputLine).map bare = (h.rows.map h.inputLine).map bare := by
    simp only [List.map_map, Function.comp_def, bare_inputLine, List.map_const', hrows, hcols]
  rw [editor, editor, hempty]
  split
  · rfl
  · simp only [bare, bareAll, bareAll_eq_map, bare_headingLine, hbody, hcols]

end Grid

namespace Playground

namespace Session

/-! ### The bare page -/

theorem bare_output (s : Session) :
    bareAll s.output = if s.notice?.isSome then
      [.element "div" [("id", ""), ("class", "")] [.text ""]] else [] := by
  unfold output
  split
  next h =>
    rw [h]
    rfl
  next h =>
    rw [h]
    rfl
  next h =>
    rw [h]
    rfl

/-- The bare page is known from the number of rows and columns and from whether anything is said
about the last action. -/
theorem bare_page_congr {s t : Session} (hrows : s.grid.rows.length = t.grid.rows.length)
    (hcols : s.grid.cols.length = t.grid.cols.length)
    (hnotice : s.notice?.isSome = t.notice?.isSome) : s.page.bare = t.page.bare := by
  have heditor := Grid.bare_editor_congr hrows hcols
  have houtput : bareAll s.output = bareAll t.output := by rw [bare_output, bare_output, hnotice]
  simp [page, head, form, controls, bare, bareAll, bareAttributes, heditor, houtput]

/-! ### Names in a page -/

theorem wellNamed_output (s : Session) : ∀ piece ∈ s.output, piece.WellNamed := by
  unfold output
  split
  · simp
  · simp [IsName]
  · simp [IsName]

/-- All tags and attributes of a page have names. -/
theorem wellNamed_page (s : Session) : s.page.WellNamed := by
  have heditor := s.grid.wellNamed_editor
  have houtput := s.wellNamed_output
  simpa [page, head, form, controls, IsName, heditor] using houtput

end Session

/-! ### Two pages -/

/-- **Nothing that people write becomes markup.** The pages of two sessions with equally many rows
and columns, which both say or both do not say something about the last action, open and close the
same in the same order. Every ampersand in a page starts an entity. -/
theorem marks_pageText (s t : Session) (hrows : s.grid.rows.length = t.grid.rows.length)
    (hcols : s.grid.cols.length = t.grid.cols.length)
    (hnotice : s.notice?.isSome = t.notice?.isSome) :
    Html.marks s.pageText.toList = Html.marks t.pageText.toList ∧
      Html.References s.pageText.toList := by
  have hbare := Session.bare_page_congr hrows hcols hnotice
  have hmarks : Html.marks s.page.render.toList = Html.marks t.page.render.toList := by
    rw [Html.marks_render s.page, Html.marks_render t.page, hbare]
  have hdoctype : Html.References "<!DOCTYPE html>".toList := .of_not_mem (by decide)
  simp only [Session.pageText, String.toList_append]
  refine ⟨?_, hdoctype.append (.render s.wellNamed_page)⟩
  rw [Html.marks_append, Html.marks_append, hmarks]

/-- A session that is all markup, beside a plain one. -/
theorem marks_pageText_of_markup :
    let s : Session :=
      ⟨"\"><script>", "</textarea>&lt;", "\" onclick=\"",
        Grid.ofEntries [(⟨7, 9⟩, .text "\"><b>&")], some (.failure "<i>&amp;</i>")⟩
    let t : Session :=
      ⟨"a", "; nothing", "p", Grid.ofEntries [(⟨1, 1⟩, .number 1)], some (.success "done")⟩
    s.grid.rows.length = t.grid.rows.length ∧ s.grid.cols.length = t.grid.cols.length ∧
      s.notice?.isSome = t.notice?.isSome ∧
      Html.marks s.pageText.toList = Html.marks t.pageText.toList ∧
      Html.References s.pageText.toList := by
  intro s t
  have hrows : s.grid.rows.length = t.grid.rows.length := by decide +kernel
  have hcols : s.grid.cols.length = t.grid.cols.length := by decide +kernel
  exact ⟨hrows, hcols, rfl, marks_pageText s t hrows hcols rfl⟩

end Playground

end GridLang
