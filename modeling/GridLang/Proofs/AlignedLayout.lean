import Mathlib.Algebra.GroupWithZero.Nat
import Mathlib.Order.Bounds.Basic
import GridLang.Grid.Layout
import GridLang.Proofs.SubmittedGrid
import GridLang.Proofs.TypedText

/-!
# GridLang.Proofs.AlignedLayout

**The plain text of a grid is aligned and complete.** Widths are sizes in octets, while fields are
filled up in characters. A text has no more characters than octets (`length_le_utf8ByteSize`), so
every field fits, and all lines come out equally long.

* `Grid.isGreatest_labelWidth`, `Grid.isGreatest_columnWidth`: what the widths are.
* `Grid.aligned_layoutLine`: the separator and the field of each column stand at the same offset in
  every line whose label and fields fit.
* `Grid.splitOn_layout`: the lines of the plain text, if no cell has a line feed in it.
-/

namespace GridLang

/-! ### Sizes of texts -/

theorem length_le_utf8ByteSize (s : String) : s.length ≤ s.utf8ByteSize := by
  rw [← s.ofList_toList, String.length_ofList]
  induction s.toList with
  | nil => exact Nat.zero_le _
  | cons c cs ih =>
      have hc : 0 < c.utf8Size := c.utf8Size_pos
      rw [String.ofList_cons, String.utf8ByteSize_append, String.utf8ByteSize_singleton,
        List.length_cons]
      omega

/-- ASCII texts have as many octets as characters. -/
theorem utf8ByteSize_eq_length {s : String} (h : ∀ c ∈ s.toList, c.toNat ≤ 127) :
    s.utf8ByteSize = s.length := by
  rw [← s.ofList_toList, String.length_ofList]
  induction hs : s.toList generalizing s with
  | nil => rfl
  | cons c cs ih =>
      rw [hs] at h
      have hc : c.utf8Size = 1 := Char.utf8Size_eq_one_iff.2 (h c List.mem_cons_self)
      have hcs := @ih (String.ofList cs)
        (by simpa using fun d hd => h d (List.mem_cons_of_mem c hd)) String.toList_ofList
      rw [String.ofList_cons, String.utf8ByteSize_append, String.utf8ByteSize_singleton, hc, hcs,
        List.length_cons, Nat.add_comm]

namespace Grid

theorem utf8ByteSize_ofUInt64 (n : UInt64) :
    (Numeral.ofUInt64 n).utf8ByteSize = (Numeral.ofUInt64 n).length :=
  utf8ByteSize_eq_length fun _ hc =>
    (Lexeme.toNat_le_of_isDigit (Numeral.isDigit_of_mem_ofUInt64 hc)).trans (by decide)

theorem utf8ByteSize_rowLabel (row : UInt64) :
    (rowLabel row).utf8ByteSize = (rowLabel row).length := by
  simp only [rowLabel, String.utf8ByteSize_append, String.length_append, utf8ByteSize_ofUInt64]
  rfl

/-! ### The largest size -/

theorem isGreatest_largest {sizes : List Nat} (h : sizes ≠ []) :
    IsGreatest {n | n ∈ sizes} (largest sizes) := by
  induction sizes using List.reverseRecOn with
  | nil => exact absurd rfl h
  | append_singleton sizes n ih =>
      have hmax : largest (sizes ++ [n]) = max (largest sizes) n := by simp [largest]
      rw [hmax]
      by_cases hnil : sizes = []
      · subst hnil
        simp [largest, IsGreatest, upperBounds]
      · obtain ⟨hmem, hle⟩ := ih hnil
        constructor
        · rcases Nat.le_total (largest sizes) n with hn | hn
          · simp [hn]
          · simp [hn, show largest sizes ∈ sizes from hmem]
        · intro m hm
          rcases List.mem_append.1 hm with hm | hm
          · exact (hle hm).trans (Nat.le_max_left _ _)
          · exact (List.mem_singleton.1 hm).le.trans (Nat.le_max_right _ _)

variable (g : Grid)

/-- The lengths of the row labels of a grid. -/
def labelLengths : Set Nat := {n | ∃ row ∈ g.rows, n = (rowLabel row).length}

/-- The number of digits of a column, and the numbers of octets of the cells that are set in it. -/
def columnSizes (col : UInt64) : Set Nat :=
  {n | n = (Numeral.ofUInt64 col).length ∨
    ∃ row c, g.get? ⟨row, col⟩ = some c ∧ n = c.shown.utf8ByteSize}

variable {g}

/-- The labels are as wide as the longest of them. -/
theorem isGreatest_labelWidth (h : g.isEmpty = false) :
    IsGreatest g.labelLengths g.labelWidth := by
  have hrows : g.rows ≠ [] := fun hnil => by simp [g.rows_eq_nil_iff.1 hnil] at h
  have hset : g.labelLengths = {n | n ∈ g.rows.map fun row => (rowLabel row).utf8ByteSize} := by
    ext n
    simp only [labelLengths, utf8ByteSize_rowLabel, Set.mem_ofPred_eq, List.mem_map, eq_comm]
  rw [hset]
  exact isGreatest_largest (by simpa using hrows)

theorem shownAt_of_get?_eq_some {a : Address} {c : Cell} (h : g.get? a = some c) :
    g.shownAt a = c.shown := by rw [shownAt, h, Option.map_some, Option.getD_some]

theorem shownAt_of_get?_eq_none {a : Address} (h : g.get? a = none) : g.shownAt a = "" := by
  rw [shownAt, h, Option.map_none, Option.getD_none]

/-- A column is as wide as its number, or as the cell in it that has the most octets. -/
theorem isGreatest_columnWidth (g : Grid) (col : UInt64) :
    IsGreatest (g.columnSizes col) (g.columnWidth col) := by
  obtain ⟨hmem, hle⟩ := @isGreatest_largest ((Numeral.ofUInt64 col).utf8ByteSize ::
    g.rows.map fun row => (g.shownAt ⟨row, col⟩).utf8ByteSize) (by simp)
  rw [← columnWidth, utf8ByteSize_ofUInt64] at hmem hle
  have hnumeral : (Numeral.ofUInt64 col).length ≤ g.columnWidth col := hle List.mem_cons_self
  have hshown {row : UInt64} (hrow : row ∈ g.rows) :
      (g.shownAt ⟨row, col⟩).utf8ByteSize ≤ g.columnWidth col :=
    hle (List.mem_cons_of_mem _ (List.mem_map_of_mem hrow))
  constructor
  · rcases List.mem_cons.1 hmem with hmem | hmem
    · exact .inl hmem
    · obtain ⟨row, -, hsize⟩ := List.mem_map.1 hmem
      cases hc : g.get? ⟨row, col⟩ with
      | some c => exact .inr ⟨row, c, hc, by rw [← hsize, shownAt_of_get?_eq_some hc]⟩
      | none =>
          -- Nothing is shown there, but the number of the column has a digit.
          have hdigits : 0 < (Numeral.ofUInt64 col).length := by
            rw [← String.length_toList, Numeral.ofUInt64, Numeral.toList_ofNat]
            exact Nat.length_toDigits_pos
          rw [shownAt_of_get?_eq_none hc] at hsize
          exact absurd hnumeral (by rw [← hsize]; exact Nat.not_le_of_lt hdigits)
  · rintro n (rfl | ⟨row, c, hc, rfl⟩)
    · exact hnumeral
    · rw [← shownAt_of_get?_eq_some hc]
      exact hshown (mem_rows.2 ⟨col, by simp [hc]⟩)

/-- What is shown in a column fits into it. -/
theorem length_shownAt_le (g : Grid) (row col : UInt64) :
    (g.shownAt ⟨row, col⟩).length ≤ g.columnWidth col := by
  cases hc : g.get? ⟨row, col⟩ with
  | none =>
      rw [shownAt_of_get?_eq_none hc]
      exact Nat.zero_le _
  | some c =>
      rw [shownAt_of_get?_eq_some hc]
      exact (length_le_utf8ByteSize _).trans
        ((isGreatest_columnWidth g col).2 (.inr ⟨row, c, hc, rfl⟩))

/-! ### One line -/

/-- The offset in a line at which columns behind the given ones go on: behind the label, three
characters for the separator of each, and its width. -/
def offset (g : Grid) (cols : List UInt64) : Nat :=
  g.labelWidth + (cols.map fun col => 3 + g.columnWidth col).sum

/-- A line in which the label and the fields of the columns stand at their offsets: the label is
filled up behind, and each field in front. -/
structure Aligned (g : Grid) (label : String) (field : UInt64 → String) (line : List Char) :
    Prop where
  /-- The line ends where the last column does. -/
  length_eq : line.length = g.offset g.cols
  /-- The label starts the line. -/
  label_eq : label.length ≤ g.labelWidth ∧
    line.take g.labelWidth = label.toList ++ List.replicate (g.labelWidth - label.length) ' '
  /-- Each column starts with its separator, and its field ends where the next one starts. -/
  column_eq : ∀ before col after, g.cols = before ++ col :: after →
    (line.drop (g.offset before)).take 3 = [' ', '|', ' '] ∧
    (field col).length ≤ g.columnWidth col ∧
    (line.drop (g.offset before + 3)).take (g.columnWidth col) =
      List.replicate (g.columnWidth col - (field col).length) ' ' ++ (field col).toList

theorem length_alignLeft {width : Nat} {s : String} (h : s.length ≤ width) :
    (Text.alignLeft width s).toList.length = width := by
  simp only [Text.alignLeft, String.toList_ofList, List.length_append, List.length_replicate,
    String.length_toList]
  omega

theorem length_alignRight {width : Nat} {s : String} (h : s.length ≤ width) :
    (Text.alignRight width s).toList.length = width := by
  simp only [Text.alignRight, String.toList_ofList, List.length_append, List.length_replicate,
    String.length_toList]
  omega

/-- A column of a line: its separator and its field. -/
def columnText (g : Grid) (field : UInt64 → String) (col : UInt64) : List Char :=
  [' ', '|', ' '] ++ (Text.alignRight (g.columnWidth col) (field col)).toList

theorem toList_layoutLine (g : Grid) (label : String) (field : UInt64 → String) :
    (g.layoutLine label field).toList =
      (Text.alignLeft g.labelWidth label).toList ++ g.cols.flatMap (g.columnText field) := by
  rw [layoutLine, String.toList_append, String.toList_join, List.flatMap_map]
  simp only [String.toList_append]
  rfl

/-- What stands in front of a column reaches up to its offset. -/
theorem length_columns {label : String} {field : UInt64 → String}
    (hlabel : label.length ≤ g.labelWidth) {cols : List UInt64}
    (hfield : ∀ col ∈ cols, (field col).length ≤ g.columnWidth col) :
    ((Text.alignLeft g.labelWidth label).toList ++ cols.flatMap (g.columnText field)).length =
      g.offset cols := by
  have hcolumn : cols.map (fun col => (g.columnText field col).length) =
      cols.map fun col => 3 + g.columnWidth col := by
    refine List.map_congr_left fun col hcol => ?_
    rw [columnText, List.length_append, length_alignRight (hfield col hcol)]
    rfl
  rw [List.length_append, length_alignLeft hlabel, List.length_flatMap, hcolumn, offset]

/-- **A line whose label and fields fit is aligned.** -/
theorem aligned_layoutLine {label : String} {field : UInt64 → String}
    (hlabel : label.length ≤ g.labelWidth)
    (hfield : ∀ col ∈ g.cols, (field col).length ≤ g.columnWidth col) :
    g.Aligned label field (g.layoutLine label field).toList where
  length_eq := by rw [toList_layoutLine, length_columns hlabel hfield]
  label_eq := by
    refine ⟨hlabel, ?_⟩
    rw [toList_layoutLine, List.take_left' (length_alignLeft hlabel), Text.alignLeft,
      String.toList_ofList]
  column_eq := by
    intro before col after hcols
    rw [hcols] at hfield
    have hbefore := length_columns hlabel fun c hc => hfield c (List.mem_append_left _ hc)
    have hcol : (field col).length ≤ g.columnWidth col := hfield col (by simp)
    have hdrop : (g.layoutLine label field).toList.drop (g.offset before) =
        [' ', '|', ' '] ++ ((Text.alignRight (g.columnWidth col) (field col)).toList ++
          after.flatMap (g.columnText field)) := by
      rw [toList_layoutLine, hcols, List.flatMap_append, ← List.append_assoc,
        List.drop_left' hbefore, List.flatMap_cons, columnText, List.append_assoc]
    refine ⟨by rw [hdrop]; rfl, hcol, ?_⟩
    have hseparator : [' ', '|', ' '].length = 3 := rfl
    rw [← List.drop_drop, hdrop, List.drop_left' hseparator,
      List.take_left' (length_alignRight hcol), Text.alignRight, String.toList_ofList]

/-! ### All lines -/

theorem splitOn_unlines {lines : List String} (h : ∀ line ∈ lines, '\n' ∉ line.toList) :
    (Text.unlines lines).toList.splitOn '\n' = lines.map String.toList ++ [[]] := by
  rw [Text.unlines, String.toList_join]
  induction lines with
  | nil => rfl
  | cons line lines ih =>
      have hrest := ih fun other ho => h other (List.mem_cons_of_mem line ho)
      have hline : (line ++ "\n").toList = line.toList ++ ['\n'] := String.toList_append
      rw [List.map_cons, List.flatMap_cons, hline, List.append_assoc, List.singleton_append,
        List.splitOn_append_cons_self_of_not_mem (h line List.mem_cons_self), hrest]
      rfl

theorem newline_not_mem_ofUInt64 (n : UInt64) : '\n' ∉ (Numeral.ofUInt64 n).toList :=
  fun h => absurd (Numeral.isDigit_of_mem_ofUInt64 h) (by decide)

/-- Nothing that is shown has a line feed in it, unless it is a text with one. -/
theorem newline_not_mem_shownAt (h : ∀ a s, g.get? a = some (.text s) → '\n' ∉ s.toList)
    (a : Address) : '\n' ∉ (g.shownAt a).toList := by
  cases hc : g.get? a with
  | none => simp [shownAt_of_get?_eq_none hc]
  | some c =>
      rw [shownAt_of_get?_eq_some hc]
      cases c with
      | number n => exact fun hmem => absurd (Numeral.isBlank_of_mem_ofInt64 hmem) (by decide)
      | text s => exact h a s hc

theorem newline_not_mem_layoutLine {label : String} {field : UInt64 → String}
    (hlabel : '\n' ∉ label.toList) (hfield : ∀ col, '\n' ∉ (field col).toList) :
    '\n' ∉ (g.layoutLine label field).toList := by
  have hcolumn : ∀ col, '\n' ∉ g.columnText field col := fun col => by
    simp [columnText, Text.alignRight, hfield col]
  simp [toList_layoutLine, Text.alignLeft, hlabel, hcolumn]

/-- **The lines of the plain text** are those of the layout, each of them ended. -/
theorem splitOn_layout (hset : g.isEmpty = false)
    (h : ∀ a s, g.get? a = some (.text s) → '\n' ∉ s.toList) :
    g.layout.toList.splitOn '\n' = g.layoutLines.map String.toList ++ [[]] := by
  rw [layout, if_neg (by simp [hset])]
  refine splitOn_unlines fun line hline => ?_
  rcases List.mem_cons.1 hline with rfl | hline
  · exact newline_not_mem_layoutLine (by simp) newline_not_mem_ofUInt64
  · obtain ⟨row, -, rfl⟩ := List.mem_map.1 hline
    refine newline_not_mem_layoutLine ?_ fun col => newline_not_mem_shownAt h _
    simp [rowLabel, newline_not_mem_ofUInt64]

/-- **The plain text of a grid is aligned and complete.** Let something be set, and let no text
have a line feed in it. Then there is one line with the numbers of the columns, and behind it one
line for each row in use, with its label and with what is shown in it. The lines are aligned: they
are equally long, and in each of them a column starts at the same offset. -/
theorem layout_aligned (g : Grid) (hset : g.isEmpty = false)
    (h : ∀ a s, g.get? a = some (.text s) → '\n' ∉ s.toList) :
    (IsGreatest g.labelLengths g.labelWidth ∧
      ∀ col, IsGreatest (g.columnSizes col) (g.columnWidth col)) ∧
    ((g.rows.Pairwise (· < ·) ∧ ∀ row, row ∈ g.rows ↔ ∃ col, (g.get? ⟨row, col⟩).isSome) ∧
      g.cols.Pairwise (· < ·) ∧ ∀ col, col ∈ g.cols ↔ ∃ row, (g.get? ⟨row, col⟩).isSome) ∧
    ∃ (header : List Char) (line : UInt64 → List Char),
      g.layout.toList.splitOn '\n' = header :: g.rows.map line ++ [[]] ∧
      g.Aligned "" Numeral.ofUInt64 header ∧
      ∀ row ∈ g.rows, g.Aligned (rowLabel row) (fun col => g.shownAt ⟨row, col⟩) (line row) := by
  have hlabel := isGreatest_labelWidth hset
  refine ⟨⟨hlabel, isGreatest_columnWidth g⟩,
    ⟨⟨g.pairwise_rows, fun _ => mem_rows⟩, g.pairwise_cols, fun _ => mem_cols⟩, _,
    fun row => (g.layoutLine (rowLabel row) fun col => g.shownAt ⟨row, col⟩).toList, ?_,
    aligned_layoutLine (Nat.zero_le _) fun col _ => (isGreatest_columnWidth g col).2 (.inl rfl),
    fun row hrow => aligned_layoutLine (hlabel.2 ⟨row, hrow, rfl⟩) fun col _ =>
      g.length_shownAt_le row col⟩
  rw [splitOn_layout hset h, layoutLines, List.map_cons, List.map_map]
  rfl

/-- A text with more octets than characters: its column is wider than any text in it. -/
theorem layout_aligned_accents :
    let g := Grid.ofEntries [(⟨1, 10⟩, .text "éé"), (⟨20, 1⟩, .number (-5))]
    g.isEmpty = false ∧ (∀ a s, g.get? a = some (.text s) → '\n' ∉ s.toList) ∧
      g.layout = "     |  1 |   10\n[1]  |    |   éé\n[20] | -5 |     \n" ∧
      IsGreatest g.labelLengths 4 ∧ IsGreatest (g.columnSizes 10) 4 ∧
      ∃ (header : List Char) (line : UInt64 → List Char),
        g.layout.toList.splitOn '\n' = [header, line 1, line 20, []] ∧
        g.Aligned "" Numeral.ofUInt64 header ∧
        g.Aligned "[20]" (fun col => g.shownAt ⟨20, col⟩) (line 20) := by
  intro g
  have hset : g.isEmpty = false := by decide +kernel
  have hentries : g.entries = [(⟨1, 10⟩, .text "éé"), (⟨20, 1⟩, .number (-5))] := by decide +kernel
  have h : ∀ a s, g.get? a = some (.text s) → '\n' ∉ s.toList := by
    intro a s ha
    have hmem := mem_entries.2 ha
    rw [hentries] at hmem
    obtain ⟨-, rfl⟩ : a = ⟨1, 10⟩ ∧ s = "éé" := by simpa using hmem
    decide
  obtain ⟨⟨hlabel, hcolumn⟩, -, header, line, hlines, hheader, hrows⟩ := layout_aligned g hset h
  have hrowList : g.rows = [1, 20] := by decide +kernel
  have hlabelWidth : g.labelWidth = 4 := by decide +kernel
  have hcolumnWidth : g.columnWidth 10 = 4 := by decide +kernel
  have hten := hcolumn 10
  rw [hlabelWidth] at hlabel
  rw [hcolumnWidth] at hten
  rw [hrowList] at hlines
  exact ⟨hset, h, by decide +kernel, hlabel, hten, header, line, hlines, hheader,
    hrows 20 (by simp [hrowList])⟩

end Grid

end GridLang
