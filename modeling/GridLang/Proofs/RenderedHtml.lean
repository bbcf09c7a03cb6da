import GridLang.Html
import GridLang.Text.Cut
import GridLang.Proofs.LongestLexeme

/-!
# GridLang.Proofs.RenderedHtml

**What the written form of a tree tells its reader.** All that is assumed of a tree is that its
tags and attributes have names (`WellNamed`); its texts and values are arbitrary.

* Escaping: `unescape_escape` reads an escaped text back, and nothing in it is markup
  (`isMark_of_mem_escape`).
* Reading: `readTags` finds the tags of a text and decodes their attributes. What it finds in the
  written form of a tree are the tags of the tree, in document order (`readTags_render`).
* Injection: the marks of a written form are those of the bare tree, without texts and values
  (`marks_render`), and every ampersand in it starts an entity (`References.render`).
-/

namespace GridLang.Html

/-! ### Escaped text -/

/-- Whether a character opens or closes a tag or a value. -/
def isMark (c : Char) : Bool := c = '<' || c = '>' || c = '"'

/-- What may stand behind an ampersand. -/
def entities : List String := ["amp;", "lt;", "gt;", "quot;"]

theorem toList_escape (s : String) : (escape s).toList = s.toList.flatMap escapeChar := by
  simp [escape]

/-- A character is one of the four that are replaced, or written as it is. -/
theorem escapeChar_cases (c : Char) :
    (c = '&' ∨ c = '<' ∨ c = '>' ∨ c = '"') ∨ escapeChar c = [c] ∧ isMark c = false ∧ c ≠ '&' := by
  unfold escapeChar
  split
  · simp
  · simp
  · simp
  · simp
  next amp lt gt quot =>
    have hnone : (¬c = '<' ∧ ¬c = '>') ∧ ¬c = '"' := ⟨⟨lt, gt⟩, quot⟩
    exact .inr ⟨rfl, by simpa [isMark] using hnone, amp⟩

/-- The characters that an escaped text stands for. -/
def unescape : List Char → List Char
  | '&' :: 'a' :: 'm' :: 'p' :: ';' :: cs => '&' :: unescape cs
  | '&' :: 'l' :: 't' :: ';' :: cs => '<' :: unescape cs
  | '&' :: 'g' :: 't' :: ';' :: cs => '>' :: unescape cs
  | '&' :: 'q' :: 'u' :: 'o' :: 't' :: ';' :: cs => '"' :: unescape cs
  | c :: cs => c :: unescape cs
  | [] => []

theorem unescape_cons {c : Char} (h : c ≠ '&') (cs : List Char) :
    unescape (c :: cs) = c :: unescape cs := by
  rw [unescape]
  all_goals
    intro _ hc
    exact absurd hc h

/-- An escaped text is read back. -/
theorem unescape_escape (s : String) : unescape (escape s).toList = s.toList := by
  rw [toList_escape]
  induction s.toList with
  | nil => rfl
  | cons c cs ih =>
      rw [List.flatMap_cons]
      rcases escapeChar_cases c with (rfl | rfl | rfl | rfl) | ⟨hc, -, hne⟩
      · show '&' :: unescape (cs.flatMap escapeChar) = '&' :: cs
        rw [ih]
      · show '<' :: unescape (cs.flatMap escapeChar) = '<' :: cs
        rw [ih]
      · show '>' :: unescape (cs.flatMap escapeChar) = '>' :: cs
        rw [ih]
      · show '"' :: unescape (cs.flatMap escapeChar) = '"' :: cs
        rw [ih]
      · rw [hc, List.singleton_append, unescape_cons hne, ih]

theorem any_isMark_escapeChar (c : Char) : (escapeChar c).any isMark = false := by
  rcases escapeChar_cases c with (rfl | rfl | rfl | rfl) | ⟨hc, hm, -⟩
  · decide
  · decide
  · decide
  · decide
  · rw [hc, List.any_cons, hm, List.any_nil, Bool.or_false]

/-- Nothing in an escaped text is markup. -/
theorem isMark_of_mem_escape {s : String} {c : Char} (h : c ∈ (escape s).toList) :
    isMark c = false := by
  rw [toList_escape, List.mem_flatMap] at h
  obtain ⟨d, -, hd⟩ := h
  have hnone := any_isMark_escapeChar d
  rw [List.any_eq_false] at hnone
  exact Bool.eq_false_iff.2 (hnone c hd)

theorem not_mem_escape {s : String} {c : Char} (h : isMark c = true) : c ∉ (escape s).toList :=
  fun hc => by simp [isMark_of_mem_escape hc] at h

/-! ### Names -/

/-- A text of letters and digits. -/
def IsName (s : String) : Prop := s.toList.all Char.isAlphanum = true

instance (s : String) : Decidable (IsName s) :=
  inferInstanceAs (Decidable (s.toList.all Char.isAlphanum = true))

theorem IsName.not_mem {s : String} (h : IsName s) {c : Char} (hc : c.isAlphanum = false) :
    c ∉ s.toList := by
  intro hmem
  rw [IsName, List.all_eq_true] at h
  simp [h c hmem] at hc

/-- All tags and attributes of a tree have names. -/
inductive WellNamed : Html → Prop
  | text (s : String) : WellNamed (.text s)
  | element {tag : String} {attributes : List (String × String)} {contents : List Html} :
      IsName tag → (∀ a ∈ attributes, IsName a.1) → (∀ piece ∈ contents, piece.WellNamed) →
      WellNamed (.element tag attributes contents)
  | void {tag : String} {attributes : List (String × String)} :
      IsName tag → (∀ a ∈ attributes, IsName a.1) → WellNamed (.void tag attributes)

section WellNamed

variable {tag : String} {attributes : List (String × String)} {contents : List Html}

@[simp] theorem wellNamed_text (s : String) : (text s).WellNamed := .text s

@[simp] theorem wellNamed_element :
    (element tag attributes contents).WellNamed ↔
      IsName tag ∧ (∀ a ∈ attributes, IsName a.1) ∧ ∀ piece ∈ contents, piece.WellNamed := by
  constructor
  · intro h
    cases h with
    | element htag hattributes hcontents => exact ⟨htag, hattributes, hcontents⟩
  · rintro ⟨htag, hattributes, hcontents⟩
    exact .element htag hattributes hcontents

@[simp] theorem wellNamed_void :
    (void tag attributes).WellNamed ↔ IsName tag ∧ ∀ a ∈ attributes, IsName a.1 := by
  constructor
  · intro h
    cases h with
    | void htag hattributes => exact ⟨htag, hattributes⟩
  · rintro ⟨htag, hattributes⟩
    exact .void htag hattributes

end WellNamed

/-! ### Written forms as lists of characters -/

theorem renderAttributes_nil : (renderAttributes []).toList = [] := rfl

theorem renderAttributes_cons (a : String × String) (attributes : List (String × String)) :
    (renderAttributes (a :: attributes)).toList =
      ' ' :: (a.1.toList ++ '=' :: '"' ::
        ((escape a.2).toList ++ '"' :: (renderAttributes attributes).toList)) := by
  simp [renderAttributes, String.join_cons]

theorem renderAll_cons (piece : Html) (pieces : List Html) :
    (renderAll (piece :: pieces)).toList = piece.render.toList ++ (renderAll pieces).toList := by
  rw [renderAll, String.toList_append]

/-- A tag as it is written, from its bracket to the one that closes it. -/
def tagText (name : String) (attributes : List (String × String)) : List Char :=
  '<' :: (name.toList ++ ((renderAttributes attributes).toList ++ ['>']))

theorem render_text (s : String) : (text s).render.toList = (escape s).toList := by rw [render]

theorem render_element (tag : String) (attributes : List (String × String))
    (contents : List Html) :
    (element tag attributes contents).render.toList =
      tagText tag attributes ++ ((renderAll contents).toList ++ tagText ("/" ++ tag) []) := by
  simp [render, tagText, renderAttributes_nil]

theorem render_void (tag : String) (attributes : List (String × String)) :
    (void tag attributes).render.toList = tagText tag attributes := by
  simp [render, tagText]

/-! ### Reading tags -/

/-- A tag of a text: its name, which begins with a slash if it closes an element, and its
attributes. -/
structure Tag where
  /-- The name. -/
  name : String
  /-- The names of the attributes and the values that they stand for. -/
  attributes : List (String × String)
  deriving Repr, DecidableEq

/-- The attributes that a text starts with, and what stands behind them. -/
def readAttributes : List Char → List (String × String) × List Char
  | ' ' :: cs =>
    match _h : Text.cut '=' cs with
    | some (name, '"' :: rest) =>
      match _h' : Text.cut '"' rest with
      | some (value, rest) =>
        let (attributes, rest) := readAttributes rest
        ((String.ofList name, String.ofList (unescape value)) :: attributes, rest)
      | none => ([], ' ' :: cs)
    | _ => ([], ' ' :: cs)
  | cs => ([], cs)
termination_by cs => cs.length
decreasing_by
  rw [Text.cut_eq_some_iff] at _h _h'
  obtain ⟨rfl, -⟩ := _h
  obtain ⟨rfl, -⟩ := _h'
  simp only [List.length_append, List.length_cons]
  omega

theorem length_readAttributes_le (cs : List Char) : (readAttributes cs).2.length ≤ cs.length := by
  fun_induction readAttributes cs with
  | case1 cs name rest h value rest' h' attributes rest'' heq ih =>
      rw [Text.cut_eq_some_iff] at h h'
      obtain ⟨rfl, -⟩ := h
      obtain ⟨rfl, -⟩ := h'
      have ih : rest''.length ≤ rest'.length := by
        rw [heq] at ih
        exact ih
      simp only [List.length_cons, List.length_append]
      omega
  | case2 => exact Nat.le_refl _
  | case3 => exact Nat.le_refl _
  | case4 => exact Nat.le_refl _

/-- Whether a character may stand in the name of a tag that is read. -/
def inName (c : Char) : Bool := c ≠ ' ' && c ≠ '>'

/-- The tags of a text, in document order. -/
def readTags : List Char → List Tag
  | [] => []
  | c :: cs =>
    if c = '<' then
      let found := readAttributes (cs.dropWhile inName)
      ⟨String.ofList (cs.takeWhile inName), found.1⟩ :: readTags found.2
    else readTags cs
termination_by cs => cs.length
decreasing_by
  · have h := length_readAttributes_le (cs.dropWhile inName)
    have h' := (List.dropWhile_suffix inName (l := cs)).length_le
    simp only [List.length_cons]
    omega
  · exact Nat.lt_succ_self _

/-- An attribute is read, whatever stands behind it. -/
theorem readAttributes_append {name value : List Char} (hname : '=' ∉ name) (hvalue : '"' ∉ value)
    (rest : List Char) :
    readAttributes (' ' :: (name ++ '=' :: '"' :: (value ++ '"' :: rest))) =
      ((String.ofList name, String.ofList (unescape value)) :: (readAttributes rest).1,
        (readAttributes rest).2) := by
  have hcut := Text.cut_eq_some_iff.2
    ⟨(rfl : name ++ '=' :: '"' :: (value ++ '"' :: rest) = _), hname⟩
  have hcut' := Text.cut_eq_some_iff.2 ⟨(rfl : value ++ '"' :: rest = _), hvalue⟩
  rw [readAttributes]
  split
  next h =>
    rw [hcut] at h
    cases h
    split
    next h' =>
      rw [hcut'] at h'
      cases h'
      rfl
    next h' =>
      rw [hcut'] at h'
      cases h'
  next h => exact absurd hcut (h _ _)

/-- Attributes with names are read back as far as the bracket behind them. -/
theorem readAttributes_render {attributes : List (String × String)}
    (h : ∀ a ∈ attributes, IsName a.1) (rest : List Char) :
    readAttributes ((renderAttributes attributes).toList ++ '>' :: rest) =
      (attributes, '>' :: rest) := by
  induction attributes with
  | nil =>
      rw [renderAttributes_nil, List.nil_append, readAttributes]
      simp
  | cons a attributes ih =>
      have hname : '=' ∉ a.1.toList := (h a List.mem_cons_self).not_mem (by decide)
      have hvalue : '"' ∉ (escape a.2).toList := not_mem_escape (by decide)
      have hrest := ih fun b hb => h b (List.mem_cons_of_mem a hb)
      rw [renderAttributes_cons]
      simp only [List.cons_append, List.append_assoc]
      rw [readAttributes_append hname hvalue, hrest, unescape_escape, String.ofList_toList,
        String.ofList_toList]

/-- What is no tag is passed over. -/
theorem readTags_of_not_mem {cs : List Char} (h : '<' ∉ cs) (rest : List Char) :
    readTags (cs ++ rest) = readTags rest := by
  induction cs with
  | nil => rfl
  | cons c cs ih =>
      rw [List.mem_cons, not_or] at h
      rw [List.cons_append, readTags, if_neg (Ne.symm h.1), ih h.2]

/-- The first character behind the name of a tag is not part of it. -/
theorem inName_head_attributes (attributes : List (String × String)) (rest : List Char) :
    ∀ c ∈ ((renderAttributes attributes).toList ++ '>' :: rest).head?, inName c = false := by
  cases attributes with
  | nil => simp [renderAttributes_nil, inName]
  | cons a attributes => simp [renderAttributes_cons, inName]

/-- A tag is read, and then what stands behind it. -/
theorem readTags_tagText {name : String} {attributes : List (String × String)}
    (hname : ∀ c ∈ name.toList, inName c = true) (h : ∀ a ∈ attributes, IsName a.1)
    (rest : List Char) :
    readTags (tagText name attributes ++ rest) = ⟨name, attributes⟩ :: readTags rest := by
  have hread := readAttributes_render h rest
  have hhead := inName_head_attributes attributes rest
  have hbracket : readTags (['>'] ++ rest) = readTags rest := readTags_of_not_mem (by decide) rest
  simp only [tagText, List.cons_append, List.append_assoc, List.nil_append]
  rw [readTags, if_pos rfl, Lexeme.dropWhile_run hname hhead, Lexeme.takeWhile_run hname hhead,
    hread, String.ofList_toList]
  exact congrArg _ hbracket

/-! ### The tags of a tree -/

mutual

/-- The tags of a tree, in document order. -/
def tags : Html → List Tag
  | text _ => []
  | element tag attributes contents =>
    ⟨tag, attributes⟩ :: (tagsAll contents ++ [⟨"/" ++ tag, []⟩])
  | void tag attributes => [⟨tag, attributes⟩]

/-- The tags of trees, one behind the other. -/
def tagsAll : List Html → List Tag
  | [] => []
  | piece :: pieces => piece.tags ++ tagsAll pieces

end

theorem tagsAll_eq_flatMap (pieces : List Html) : tagsAll pieces = pieces.flatMap tags := by
  induction pieces with
  | nil => rfl
  | cons piece pieces ih => rw [tagsAll, ih, List.flatMap_cons]

theorem IsName.inName {s : String} (h : IsName s) : ∀ c ∈ s.toList, Html.inName c = true := by
  intro c hc
  have hblank : c ≠ ' ' := fun e => h.not_mem (c := ' ') (by decide) (e ▸ hc)
  have hbracket : c ≠ '>' := fun e => h.not_mem (c := '>') (by decide) (e ▸ hc)
  simp [Html.inName, hblank, hbracket]

theorem IsName.inName_slash {s : String} (h : IsName s) :
    ∀ c ∈ ("/" ++ s).toList, Html.inName c = true := by
  intro c hc
  rw [String.toList_append, List.mem_append] at hc
  rcases hc with hc | hc
  · have hslash : c = '/' := by simpa using hc
    rw [hslash]
    decide
  · exact h.inName c hc

theorem readTags_renderAll {pieces : List Html}
    (h : ∀ piece ∈ pieces, ∀ rest, readTags (piece.render.toList ++ rest) =
      piece.tags ++ readTags rest) (rest : List Char) :
    readTags ((renderAll pieces).toList ++ rest) = tagsAll pieces ++ readTags rest := by
  induction pieces with
  | nil => rfl
  | cons piece pieces ih =>
      have hpieces := ih fun other ho => h other (List.mem_cons_of_mem piece ho)
      rw [renderAll_cons, List.append_assoc, h piece List.mem_cons_self, hpieces, tagsAll,
        List.append_assoc]

/-- In the written form of a tree, its tags are read, and then what stands behind. -/
theorem readTags_render_append {t : Html} (h : t.WellNamed) (rest : List Char) :
    readTags (t.render.toList ++ rest) = t.tags ++ readTags rest := by
  induction h generalizing rest with
  | text s =>
      rw [render_text, readTags_of_not_mem (not_mem_escape (by decide)), tags, List.nil_append]
  | @element tag attributes contents htag hattributes _ ih =>
      have hclose : readTags (tagText ("/" ++ tag) [] ++ rest) = _ :=
        readTags_tagText htag.inName_slash (by simp) rest
      rw [render_element, List.append_assoc, List.append_assoc,
        readTags_tagText htag.inName hattributes, readTags_renderAll ih, hclose, tags]
      simp
  | void htag hattributes =>
      rw [render_void, readTags_tagText htag.inName hattributes, tags, List.singleton_append]

/-- In the written form of a tree, its tags are read. -/
theorem readTags_render {t : Html} (h : t.WellNamed) : readTags t.render.toList = t.tags := by
  have hread := readTags_render_append h []
  rwa [List.append_nil, readTags, List.append_nil] at hread

/-! ### Marks -/

/-- The characters of a text that open or close something. -/
def marks (cs : List Char) : List Char := cs.filter isMark

theorem marks_append (cs ds : List Char) : marks (cs ++ ds) = marks cs ++ marks ds :=
  List.filter_append cs ds

theorem marks_escape (s : String) : marks (escape s).toList = [] := by
  rw [marks, List.filter_eq_nil_iff]
  intro c hc
  simp [isMark_of_mem_escape hc]

/-- Attributes without their values. -/
def bareAttributes (attributes : List (String × String)) : List (String × String) :=
  attributes.map fun a => (a.1, "")

mutual

/-- A tree without its texts and values. -/
def bare : Html → Html
  | text _ => text ""
  | element tag attributes contents => element tag (bareAttributes attributes) (bareAll contents)
  | void tag attributes => void tag (bareAttributes attributes)

/-- Trees without their texts and values. -/
def bareAll : List Html → List Html
  | [] => []
  | piece :: pieces => piece.bare :: bareAll pieces

end

theorem bareAll_eq_map (pieces : List Html) : bareAll pieces = pieces.map bare := by
  induction pieces with
  | nil => rfl
  | cons piece pieces ih => rw [bareAll, ih, List.map_cons]

theorem marks_renderAttributes_cons (name value : String) (rest : List (String × String)) :
    marks (renderAttributes ((name, value) :: rest)).toList =
      marks name.toList ++ '"' :: '"' :: marks (renderAttributes rest).toList := by
  have hvalue : (escape value).toList.filter isMark = [] := marks_escape value
  rw [renderAttributes_cons]
  simp [marks, isMark, hvalue]

theorem marks_renderAttributes (attributes : List (String × String)) :
    marks (renderAttributes attributes).toList =
      marks (renderAttributes (bareAttributes attributes)).toList := by
  induction attributes with
  | nil => rfl
  | cons a attributes ih =>
      rw [bareAttributes, List.map_cons, marks_renderAttributes_cons, marks_renderAttributes_cons,
        ih, bareAttributes]

theorem marks_tagText (name : String) (attributes : List (String × String)) :
    marks (tagText name attributes) = marks (tagText name (bareAttributes attributes)) := by
  have h := marks_renderAttributes attributes
  simp only [marks] at h
  simp only [tagText, marks, List.filter_cons, List.filter_append, h]

mutual

/-- Texts and values leave no marks: those of a written form come from the bare tree. -/
theorem marks_render : ∀ t : Html, marks t.render.toList = marks t.bare.render.toList
  | text s => by rw [bare, render_text, render_text, marks_escape, marks_escape]
  | element tag attributes contents => by
      simp only [bare, render_element, marks_append]
      rw [marks_tagText tag attributes, marks_renderAll contents]
  | void tag attributes => by
      rw [bare, render_void, render_void]
      exact marks_tagText tag attributes

theorem marks_renderAll : ∀ pieces : List Html,
    marks (renderAll pieces).toList = marks (renderAll (bareAll pieces)).toList
  | [] => rfl
  | piece :: pieces => by
      rw [bareAll, renderAll_cons, renderAll_cons, marks_append, marks_append, marks_render piece,
        marks_renderAll pieces]

end

/-! ### Ampersands -/

/-- Every ampersand of a text starts one of the entities. -/
def References (cs : List Char) : Prop :=
  ∀ rest, '&' :: rest <:+ cs → ∃ entity ∈ entities, entity.toList <+: rest

namespace References

theorem nil : References [] := fun _ h => by simp at h

theorem cons_iff {c : Char} {cs : List Char} :
    References (c :: cs) ↔
      (c = '&' → ∃ entity ∈ entities, entity.toList <+: cs) ∧ References cs := by
  constructor
  · intro h
    refine ⟨?_, fun rest hr => h rest (List.suffix_cons_iff.2 (.inr hr))⟩
    rintro rfl
    exact h cs List.suffix_rfl
  · rintro ⟨hc, hcs⟩ rest hr
    rcases List.suffix_cons_iff.1 hr with e | hr
    · cases e
      exact hc rfl
    · exact hcs rest hr

theorem cons {c : Char} {cs : List Char} (hc : c ≠ '&') (h : References cs) :
    References (c :: cs) := cons_iff.2 ⟨fun e => absurd e hc, h⟩

theorem append {cs ds : List Char} (hc : References cs) (hd : References ds) :
    References (cs ++ ds) := by
  induction cs with
  | nil => exact hd
  | cons c cs ih =>
      rw [cons_iff] at hc
      refine cons_iff.2 ⟨fun e => ?_, ih hc.2⟩
      obtain ⟨entity, hmem, hprefix⟩ := hc.1 e
      exact ⟨entity, hmem, hprefix.trans (List.prefix_append cs ds)⟩

theorem of_not_mem {cs : List Char} (h : '&' ∉ cs) : References cs :=
  fun _ hr => absurd (hr.subset List.mem_cons_self) h

theorem escapeChar (c : Char) : References (escapeChar c) := by
  rcases escapeChar_cases c with (rfl | rfl | rfl | rfl) | ⟨hc, -, hne⟩
  · exact cons_iff.2 ⟨fun _ => ⟨"amp;", by decide⟩, of_not_mem (by decide)⟩
  · exact cons_iff.2 ⟨fun _ => ⟨"lt;", by decide⟩, of_not_mem (by decide)⟩
  · exact cons_iff.2 ⟨fun _ => ⟨"gt;", by decide⟩, of_not_mem (by decide)⟩
  · exact cons_iff.2 ⟨fun _ => ⟨"quot;", by decide⟩, of_not_mem (by decide)⟩
  · rw [hc]
    exact of_not_mem (by simpa using Ne.symm hne)

theorem escape (s : String) : References (escape s).toList := by
  rw [toList_escape]
  induction s.toList with
  | nil => exact nil
  | cons c cs ih =>
      rw [List.flatMap_cons]
      exact (escapeChar c).append ih

theorem renderAttributes {attributes : List (String × String)}
    (h : ∀ a ∈ attributes, IsName a.1) : References (renderAttributes attributes).toList := by
  induction attributes with
  | nil => exact nil
  | cons a attributes ih =>
      have hname : References a.1.toList :=
        of_not_mem ((h a List.mem_cons_self).not_mem (by decide))
      have hrest := ih fun b hb => h b (List.mem_cons_of_mem a hb)
      have hvalue := (escape a.2).append (cons (c := '"') (by decide) hrest)
      rw [renderAttributes_cons]
      exact cons (by decide) (hname.append (cons (by decide) (cons (by decide) hvalue)))

theorem tagText {name : String} {attributes : List (String × String)} (hname : '&' ∉ name.toList)
    (h : ∀ a ∈ attributes, IsName a.1) : References (tagText name attributes) :=
  cons (by decide)
    ((of_not_mem hname).append ((renderAttributes h).append (of_not_mem (by decide))))

theorem renderAll {pieces : List Html} (h : ∀ piece ∈ pieces, References piece.render.toList) :
    References (renderAll pieces).toList := by
  induction pieces with
  | nil => exact nil
  | cons piece pieces ih =>
      rw [renderAll_cons]
      exact (h piece List.mem_cons_self).append
        (ih fun other ho => h other (List.mem_cons_of_mem piece ho))

/-- The only ampersands of a written form are those of escaping. -/
theorem render {t : Html} (h : t.WellNamed) : References t.render.toList := by
  induction h with
  | text s =>
      rw [render_text]
      exact escape s
  | element htag hattributes _ ih =>
      have hname := htag.not_mem (c := '&') (by decide)
      rw [render_element]
      exact (tagText hname hattributes).append
        ((renderAll ih).append (tagText (by simpa using hname) (by simp)))
  | void htag hattributes =>
      rw [render_void]
      exact tagText (htag.not_mem (by decide)) hattributes

end References

end GridLang.Html
