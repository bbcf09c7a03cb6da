import GridLang.Proofs.Positions
import GridLang.Proofs.PrintedScript

/-!
# GridLang.Proofs.PrintedTokens

**Printed tokens are read back, whatever stands between them.** A text is made of tokens, each
written in its text form, and of what is laid out around them: white space and comments (`Layout`).
If the tokens are readable and something stands between any two of them, the tokens of the text are
these, each at the place that the text in front of it tells (`tokens_printed`).

* `Layout.withoutComments_append`: a layout keeps its white space and nothing else, and its comments
  do not reach behind it. The places behind it stay as they are (`Layout.after_withoutComments`).
* `tokensFrom_printed`: the tokens of the text from any place on.
-/

namespace GridLang

namespace Position

/-- The place behind a text that begins at the first place: its line feeds are counted, and the
characters behind the last of them. -/
def behind (cs : List Char) : Position :=
  ⟨1 + cs.count '\n', 1 + (cs.rtakeWhile (· ≠ '\n')).length⟩

theorem behind_eq (cs : List Char) : behind cs = start.after cs := by
  rw [start_after, behind, Nat.add_comm 1, Nat.add_comm 1]

/-- At the end of a line it does not matter what stands on it. -/
theorem after_line_eq {text : List Char} (h : '\n' ∉ text) (p : Position) :
    p.after (text ++ ['\n']) = p.after ['\n'] := by
  induction text generalizing p with
  | nil => rfl
  | cons c text ih =>
      obtain ⟨hc, htext⟩ := List.ne_and_not_mem_of_not_mem_cons h
      rw [List.cons_append, after_cons, ih htext]
      simp [next, hc.symm]

end Position

namespace Source

/-! ### Layout -/

/-- White space and whole comments, in any order. -/
inductive Layout : List Char → Prop
  | nil : Layout []
  | space {c : Char} {cs : List Char} : isSpace c = true → Layout cs → Layout (c :: cs)
  | comment {text cs : List Char} : '\n' ∉ text → Layout cs → Layout (';' :: (text ++ '\n' :: cs))

/-- Layout at the end of a text, where a comment may have no line behind it. -/
inductive LastLayout : List Char → Prop
  | whole {cs : List Char} : Layout cs → LastLayout cs
  | unfinished {cs text : List Char} : Layout cs → '\n' ∉ text → LastLayout (cs ++ ';' :: text)

theorem copyOutsideComment_true {text : List Char} (h : '\n' ∉ text) :
    copyOutsideComment true text = [] := by
  induction text with
  | nil => rfl
  | cons c text ih =>
      obtain ⟨hc, htext⟩ := List.ne_and_not_mem_of_not_mem_cons h
      simp [copyOutsideComment, hc.symm, ih htext]

/-- Of a comment, the end of its line is left. -/
theorem withoutComments_comment {text : List Char} (cs : List Char) (h : '\n' ∉ text) :
    withoutComments (';' :: (text ++ '\n' :: cs)) = '\n' :: withoutComments cs := by
  show copyOutsideComment true (text ++ '\n' :: cs) = _
  rw [copyOutsideComment_append_line, copyOutsideComment_true h]
  rfl

theorem withoutComments_unfinished {text : List Char} (h : '\n' ∉ text) :
    withoutComments (';' :: text) = [] :=
  copyOutsideComment_true h

theorem ne_semicolon_of_isSpace {c : Char} (h : isSpace c = true) : c ≠ ';' :=
  ne_of_apply_ne isSpace (by rw [h]; decide)

namespace Layout

variable {w : List Char}

theorem withoutComments_append (h : Layout w) (cs : List Char) :
    withoutComments (w ++ cs) = withoutComments w ++ withoutComments cs := by
  induction h with
  | nil => rfl
  | space hc _ ih =>
      have hne := ne_semicolon_of_isSpace hc
      rw [List.cons_append, withoutComments_cons _ hne, withoutComments_cons _ hne, ih,
        List.cons_append]
  | @comment text w ht _ ih =>
      rw [List.cons_append, List.append_assoc, List.cons_append, withoutComments_comment _ ht,
        withoutComments_comment _ ht, ih, List.cons_append]

theorem isBlank (h : Layout w) : IsBlank (withoutComments w) := by
  induction h with
  | nil => exact fun c hc => absurd hc List.not_mem_nil
  | space hc _ ih =>
      rw [withoutComments_cons _ (ne_semicolon_of_isSpace hc)]
      exact List.forall_mem_cons.2 ⟨hc, ih⟩
  | comment ht _ ih =>
      rw [withoutComments_comment _ ht]
      exact List.forall_mem_cons.2 ⟨rfl, ih⟩

/-- Comments do not change where the text goes on. -/
theorem after_withoutComments (h : Layout w) (p : Position) :
    p.after (withoutComments w) = p.after w := by
  induction h generalizing p with
  | nil => rfl
  | space hc _ ih =>
      rw [withoutComments_cons _ (ne_semicolon_of_isSpace hc), Position.after_cons, ih,
        Position.after_cons]
  | @comment text w ht _ ih =>
      have hline : '\n' ∉ ';' :: text := by simpa using ht
      rw [withoutComments_comment _ ht, Position.after_cons, ih, ← List.cons_append,
        List.append_cons, Position.after_append, Position.after_line_eq hline]
      rfl

theorem withoutComments_ne_nil (h : Layout w) (hw : w ≠ []) : withoutComments w ≠ [] := by
  cases h with
  | nil => exact absurd rfl hw
  | space hc =>
      rw [withoutComments_cons _ (ne_semicolon_of_isSpace hc)]
      exact List.cons_ne_nil _ _
  | comment ht =>
      rw [withoutComments_comment _ ht]
      exact List.cons_ne_nil _ _

end Layout

theorem LastLayout.isBlank {w : List Char} (h : LastLayout w) : IsBlank (withoutComments w) := by
  cases h with
  | whole h => exact h.isBlank
  | unfinished h ht =>
      rw [h.withoutComments_append, withoutComments_unfinished ht, List.append_nil]
      exact h.isBlank

theorem isSpace_apart {c : Char} (h : isSpace c = true) :
    Lexeme.isWordChar c = false ∧ c ≠ '-' ∧ c ≠ '=' := by
  simp only [isSpace, Bool.or_eq_true, decide_eq_true_eq] at h
  rcases h with ((((rfl | rfl) | rfl) | rfl) | rfl) | rfl <;> decide

/-- White space ends every lexeme. -/
theorem IsBlank.apart {blank : List Char} (h : IsBlank blank) : Lexeme.Apart blank := by
  intro c hc
  exact isSpace_apart (h c (List.mem_of_mem_head? hc))

/-! ### Printed tokens -/

/-- A token of a text, with the layout in front of it. -/
structure PrintedToken where
  layout : List Char
  token : Token

/-- The layout, and behind it the token as it is written. -/
def PrintedToken.source (x : PrintedToken) : List Char := x.layout ++ x.token.text.toList

/-- Tokens with their layouts, and a layout behind the last of them. -/
def printed (xs : List PrintedToken) (last : List Char) : List Char :=
  xs.flatMap PrintedToken.source ++ last

/-- The tokens can be read, and what is laid out around them keeps them apart. -/
structure WellSpaced (xs : List PrintedToken) (last : List Char) : Prop where
  readable : ∀ x ∈ xs, x.token.Readable
  layout : ∀ x ∈ xs, Layout x.layout
  apart : ∀ x ∈ xs.tail, x.layout ≠ []
  last : LastLayout last

theorem printed_cons (x : PrintedToken) (xs : List PrintedToken) (last : List Char) :
    printed (x :: xs) last = x.layout ++ (x.token.text.toList ++ printed xs last) := by
  simp [printed, PrintedToken.source]

/-- A readable token is written as one lexeme. -/
theorem written_text {t : Token} (h : t.Readable) : Written t.text t := by
  cases t with
  | keyword k => exact written_keyword k
  | cell a => exact written_cell a
  | assign => exact written_assign
  | comparator c => exact written_comparator c
  | comma => exact written_comma
  | string s => exact written_string h
  | integer n => exact written_integer h
  | identifier name => exact written_name h

theorem semicolon_not_mem_of_written {s : String} {t : Token} (h : Written s t) :
    ';' ∉ s.toList := by
  obtain ⟨l, -, -, -, -, hplain⟩ := h
  exact hplain

theorem tokensFrom_of_written {s : String} {t : Token} {blank rest : List Char} (h : Written s t)
    (hb : IsBlank blank) (hr : Lexeme.Apart rest) (p : Position) :
    tokensFrom p (blank ++ (s.toList ++ rest)) =
      (tokensFrom ((p.after blank).after s.toList) rest).map (⟨t, p.after blank⟩ :: ·) := by
  obtain ⟨l, hl, hv, hp, ht, -⟩ := h
  have hlongest := Lexeme.longest_of_front? (Lexeme.front?_spelling_append hv hp hr)
  rw [tokensFrom_of_isBlank _ hb, ← hl, tokensFrom_of_decodes hlongest ht]

namespace WellSpaced

variable {x : PrintedToken} {xs : List PrintedToken} {last : List Char}

theorem tail (h : WellSpaced (x :: xs) last) : WellSpaced xs last where
  readable y hy := h.readable y (List.mem_cons_of_mem x hy)
  layout y hy := h.layout y (List.mem_cons_of_mem x hy)
  apart y hy := h.apart y (List.mem_of_mem_tail hy)
  last := h.last

/-- What is left of a text behind a token ends the token. -/
theorem apart_printed (h : WellSpaced (x :: xs) last) :
    Lexeme.Apart (withoutComments (printed xs last)) := by
  cases xs with
  | nil => exact h.last.isBlank.apart
  | cons y ys =>
      have hy := h.layout y (by simp)
      obtain ⟨c, blank, hc⟩ :=
        List.exists_cons_of_ne_nil (hy.withoutComments_ne_nil (h.apart y (by simp)))
      have hspace := hy.isBlank c (by simp [hc])
      rw [printed_cons, hy.withoutComments_append, hc]
      exact apart_cons _ (isSpace_apart hspace)

/-- **The tokens from any place on.** -/
theorem tokensFrom_printed (h : WellSpaced xs last) (before : List Char) :
    tokensFrom (Position.start.after before) (withoutComments (printed xs last)) =
      .ok (xs.mapIdx fun i x => ⟨x.token, .behind (before ++ printed (xs.take i) x.layout)⟩) := by
  induction xs generalizing before with
  | nil =>
      have hb := tokensFrom_of_isBlank [] h.last.isBlank (p := Position.start.after before)
      rw [List.append_nil, tokensFrom_nil] at hb
      exact hb
  | cons x xs ih =>
      have hx := h.layout x List.mem_cons_self
      have hw := written_text (h.readable x List.mem_cons_self)
      have hplain := semicolon_not_mem_of_written hw
      rw [printed_cons, hx.withoutComments_append, withoutComments_append_of_not_mem _ hplain,
        tokensFrom_of_written hw hx.isBlank h.apart_printed, hx.after_withoutComments,
        ← Position.after_append, ← Position.after_append, ih h.tail, List.mapIdx_cons]
      simp [Except.map, Position.behind_eq, printed, PrintedToken.source]

end WellSpaced

/-- **Printed tokens are read back, whatever stands between them.** Take readable tokens, each with
white space and comments in front of it, and some more behind the last. If something stands between
any two tokens, the text is read as exactly these tokens in this order, each at the place behind the
text in front of it. -/
theorem tokens_printed {xs : List PrintedToken} {last : List Char} (h : WellSpaced xs last) :
    tokens (String.ofList (printed xs last)) =
      .ok (xs.mapIdx fun i x => ⟨x.token, .behind (printed (xs.take i) x.layout)⟩) := by
  have hall := h.tokensFrom_printed []
  rw [Position.after_nil] at hall
  rw [tokens, String.toList_ofList, hall]
  rfl

/-- Three tokens, with a quote in a comment and a line feed in an operand. -/
theorem tokens_printed_of_comments :
    let xs : List PrintedToken := [⟨[' ', ';', '"', '\n'], .keyword .callIf⟩,
      ⟨[';', '\n'], .string "a\nb"⟩, ⟨['\t'], .integer 7⟩]
    let last := [';', ';', 'x']
    WellSpaced xs last ∧ tokens (String.ofList (printed xs last)) =
      .ok [⟨.keyword .callIf, ⟨2, 1⟩⟩, ⟨.string "a\nb", ⟨3, 1⟩⟩, ⟨.integer 7, ⟨4, 4⟩⟩] := by
  intro xs last
  have hspaced : WellSpaced xs last := by
    refine ⟨?_, ?_, ?_, @LastLayout.unfinished [] [';', 'x'] .nil (by decide)⟩
    · simp [xs, Token.Readable]
    · have quoted : Layout [' ', ';', '"', '\n'] :=
        .space rfl (@Layout.comment ['"'] [] (by decide) .nil)
      have bare : Layout [';', '\n'] := @Layout.comment [] [] (by decide) .nil
      have tab : Layout ['\t'] := .space rfl .nil
      simp [xs, quoted, bare, tab]
    · simp [xs]
  refine ⟨hspaced, (tokens_printed hspaced).trans ?_⟩
  decide

end Source

end GridLang
