import GridLang.Playground.Session
import GridLang.Proofs.TypedText

/-!
# GridLang.Proofs.ResubmittedForm

**Taking the same form twice is taking it once.** Fields change a place one by one: each is compared
with what is shown there when its turn comes, so a field that counts as an edit the first time may
not be one the second time, and the other way round. What makes up for it is that a cell shows a
text which is converted to the same cell again (`Cell.ofTyped_shown_ofTyped`).

* `Grid.get?_applyFields`: what fields do to a place is told by the texts of the fields for it, in
  turn, whatever the spelling of their names.
* `foldl_retype_self`: the same texts in turn change nothing the second time.
-/

namespace GridLang

/-! ### One place -/

/-- A place after a text for it has been submitted: as it was if the text is what is shown there. -/
def retype (c? : Option Cell) (typed : String) : Option Cell :=
  if typed = (c?.map Cell.shown).getD "" then c? else some (Cell.ofTyped typed)

theorem retype_of_eq {c? : Option Cell} {typed : String}
    (h : typed = (c?.map Cell.shown).getD "") : retype c? typed = c? := if_pos h

theorem retype_of_ne {c? : Option Cell} {typed : String}
    (h : typed ≠ (c?.map Cell.shown).getD "") : retype c? typed = some (Cell.ofTyped typed) :=
  if_neg h

/-- Submitted to a place that was converted from some text, a text is converted, edit or not. -/
theorem retype_ofTyped (text typed : String) :
    retype (some (Cell.ofTyped text)) typed = some (Cell.ofTyped typed) := by
  by_cases h : typed = ((some (Cell.ofTyped text)).map Cell.shown).getD ""
  · rw [retype_of_eq h]
    rw [Option.map_some, Option.getD_some] at h
    rw [h, Cell.ofTyped_shown_ofTyped]
  · exact retype_of_ne h

/-- Texts in turn leave a place as it was or converted from one of them. -/
theorem foldl_retype_cases (texts : List String) (c? : Option Cell) :
    texts.foldl retype c? = c? ∨ ∃ text, texts.foldl retype c? = some (Cell.ofTyped text) := by
  induction texts using List.reverseRecOn with
  | nil => exact .inl rfl
  | append_singleton texts typed ih =>
      rw [List.foldl_append, List.foldl_cons, List.foldl_nil]
      by_cases h : typed = ((texts.foldl retype c?).map Cell.shown).getD ""
      · rwa [retype_of_eq h]
      · exact .inr ⟨typed, retype_of_ne h⟩

/-- **The same texts in turn** change nothing the second time. -/
theorem foldl_retype_self (texts : List String) (c? : Option Cell) :
    texts.foldl retype (texts.foldl retype c?) = texts.foldl retype c? := by
  induction texts using List.reverseRecOn with
  | nil => rfl
  | append_singleton texts typed ih =>
      simp only [List.foldl_append, List.foldl_cons, List.foldl_nil]
      by_cases h : typed = ((texts.foldl retype c?).map Cell.shown).getD ""
      · rw [retype_of_eq h, ih, retype_of_eq h]
      · -- The last text was an edit; the second time it need not be one.
        rw [retype_of_ne h]
        rcases foldl_retype_cases texts (some (Cell.ofTyped typed)) with hsame | ⟨text, htext⟩
        · rw [hsame, retype_ofTyped]
        · rw [htext, retype_ofTyped]

/-! ### The whole grid -/

/-- The texts of the fields for a place, in order of submission. -/
def textsFor (a : Address) (fields : List (String × String)) : List String :=
  (fields.filter fun field => Address.ofFieldName? field.1 = some a).map Prod.snd

namespace Grid

theorem get?_applyField (g : Grid) (name typed : String) (a : Address) :
    (g.applyField name typed).get? a =
      if Address.ofFieldName? name = some a then retype (g.get? a) typed else g.get? a := by
  unfold applyField
  split
  next h => simp [h]
  next b h =>
    by_cases hb : b = a
    · subst hb
      rw [if_pos h, retype, ← shownAt]
      split
      · rfl
      · exact get?_set_self g b _
    · have hname : Address.ofFieldName? name ≠ some a := by simpa [h] using hb
      rw [if_neg hname]
      split
      · rfl
      · rw [get?_set, if_neg hb]

/-- What fields do to a place is told by the texts of the fields for it. -/
theorem get?_applyFields (g : Grid) (fields : List (String × String)) (a : Address) :
    (g.applyFields fields).get? a = (textsFor a fields).foldl retype (g.get? a) := by
  induction fields generalizing g with
  | nil => rfl
  | cons field fields ih =>
      obtain ⟨name, typed⟩ := field
      rw [applyFields_cons, ih, get?_applyField]
      by_cases h : Address.ofFieldName? name = some a
      · simp [textsFor, h]
      · simp [textsFor, h]

end Grid

namespace Playground

/-- **Taking the same form twice is taking it once**, whatever its fields: several for one place,
under one or several spellings of its name, and fields that are for no place. Places that no field
is for stay as they are. -/
theorem takeCells_takeCells (s : Session) (fields : Fields) :
    (s.takeCells fields).takeCells fields = s.takeCells fields ∧
      ∀ a, (∀ field ∈ fields, Address.ofFieldName? field.1 ≠ some a) →
        (s.takeCells fields).grid.get? a = s.grid.get? a := by
  constructor
  · have hgrid : (s.grid.applyFields fields).applyFields fields = s.grid.applyFields fields := by
      refine Grid.ext fun a => ?_
      rw [Grid.get?_applyFields, Grid.get?_applyFields, foldl_retype_self]
    exact congrArg (fun grid => { s with grid }) hgrid
  · intro a ha
    have htexts : textsFor a fields = [] := by
      simpa [textsFor, List.filter_eq_nil_iff] using ha
    show (s.grid.applyFields fields).get? a = s.grid.get? a
    rw [Grid.get?_applyFields, htexts, List.foldl_nil]

/-- A text that looks like a number, submitted as it is and then under two other spellings of its
place, with a blank text and with names that are for no place in between. -/
theorem takeCells_takeCells_spellings :
    let s : Session :=
      ⟨"a", "", "", Grid.ofEntries [(⟨1, 1⟩, .text "5"), (⟨2, 2⟩, .text "7")], none⟩
    let fields := [("cell-1-1", "5"), ("cell-01-1", "x"), ("cell-1", "9"), ("cell-3-1", " "),
      ("cell--1-2", "8"), ("cell-+1-1", " +5 ")]
    (s.takeCells fields).takeCells fields = s.takeCells fields ∧
      (s.takeCells fields).grid.get? ⟨1, 1⟩ = some (.number 5) ∧
      (∀ field ∈ fields, Address.ofFieldName? field.1 ≠ some ⟨2, 2⟩) ∧
      (s.takeCells fields).grid.get? ⟨2, 2⟩ = some (.text "7") := by
  intro s fields
  have hnone : ∀ field ∈ fields, Address.ofFieldName? field.1 ≠ some ⟨2, 2⟩ := by decide +kernel
  obtain ⟨htwice, huntouched⟩ := takeCells_takeCells s fields
  exact ⟨htwice, by decide +kernel, hnone, (huntouched ⟨2, 2⟩ hnone).trans (by decide +kernel)⟩

end Playground

end GridLang
