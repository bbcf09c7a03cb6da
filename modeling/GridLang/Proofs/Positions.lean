import GridLang.Proofs.JoinedSource
import Mathlib.Data.List.DropRight

/-!
# GridLang.Proofs.Positions

**Positions point into the source text as it was written.** They are counted while reading what is
left without comments, from one lexeme to the next; a comment ends with its line, so they hold in
the full text as well.

* `Position.start_after`: the place behind a text, by its line feeds and by what follows the last.
* `getElem?_splitOn_count`: the line that two texts meet on, one behind the other.
* `Source.standsAt_of_codeOf`: what stands at a place without comments stands there in the full
  text, before the first `;` of its line.
* `Source.tokens_positions`: so it is for every token and for every error, and the positions of
  tokens ascend.
-/

namespace GridLang

/-! ### Lines -/

theorem length_splitOn (cs : List Char) : (cs.splitOn '\n').length = cs.count '\n' + 1 := by
  induction cs with
  | nil => rfl
  | cons c cs ih =>
      rw [List.splitOn_cons_eq_if_modifyHead]
      by_cases hc : c = '\n'
      · simp [hc, ih]
      · simp [hc, ih]

theorem getElem?_splitOn_zero (cs : List Char) :
    (cs.splitOn '\n')[0]? = some (cs.takeWhile (· ≠ '\n')) := by
  induction cs with
  | nil => rfl
  | cons c cs ih =>
      rw [List.splitOn_cons_eq_if_modifyHead]
      by_cases hc : c = '\n'
      · simp [hc]
      · simp [hc, List.getElem?_modifyHead, ih]

theorem not_mem_of_mem_splitOn {cs line : List Char} (h : line ∈ cs.splitOn '\n') :
    '\n' ∉ line := by
  induction cs generalizing line with
  | nil =>
      obtain rfl : line = [] := by simpa using h
      simp
  | cons c cs ih =>
      obtain ⟨first, lines, hl⟩ := List.exists_cons_of_ne_nil (List.splitOn_ne_nil '\n' cs)
      rw [List.splitOn_cons_eq_if_modifyHead, hl] at h
      rw [hl] at ih
      by_cases hc : c = '\n'
      · simp only [hc, beq_self_eq_true, if_true, List.mem_cons] at h
        rcases h with rfl | h
        · simp
        · exact ih (List.mem_cons.2 h)
      · have hne : (c == '\n') = false := by simpa using hc
        simp only [hne, Bool.false_eq_true, if_false, List.modifyHead_cons, List.mem_cons] at h
        rcases h with rfl | h
        · simpa [Ne.symm hc] using ih List.mem_cons_self
        · exact ih (List.mem_cons_of_mem _ h)

/-- Of two texts one behind the other, the last line of the first goes on with the first line of the
second. -/
theorem getElem?_splitOn_count (before rest : List Char) :
    ((before ++ rest).splitOn '\n')[before.count '\n']? =
      some (before.rtakeWhile (· ≠ '\n') ++ rest.takeWhile (· ≠ '\n')) := by
  induction before using List.reverseRecOn generalizing rest with
  | nil => exact getElem?_splitOn_zero rest
  | append_singleton before c ih =>
      rw [List.append_assoc, List.singleton_append, List.rtakeWhile_concat]
      by_cases hc : c = '\n'
      · subst hc
        have hlen := length_splitOn before
        rw [List.splitOn_append_cons_self, List.count_append, List.count_singleton_self, ← hlen,
          List.getElem?_append_right (Nat.le_refl _), Nat.sub_self]
        simpa using getElem?_splitOn_zero rest
      · have h := ih (c :: rest)
        rw [List.takeWhile_cons_of_pos (by simpa using hc)] at h
        simpa [hc] using h

namespace Position

/-- **The place behind a text**: the line is told by its line feeds, and the column by the
characters behind the last of them. -/
theorem start_after (cs : List Char) :
    start.after cs = ⟨cs.count '\n' + 1, (cs.rtakeWhile (· ≠ '\n')).length + 1⟩ := by
  induction cs using List.reverseRecOn with
  | nil => rfl
  | append_singleton cs c ih =>
      rw [after_append, ih, after_cons, after_nil, next, List.rtakeWhile_concat]
      by_cases hc : c = '\n'
      · simp [hc]
      · simp [hc]

/-- The order of reading: line by line, and on a line from left to right. -/
def Before (p q : Position) : Prop := p.line < q.line ∨ p.line = q.line ∧ p.column < q.column

theorem Before.trans {p q r : Position} (h : p.Before q) (h' : q.Before r) : p.Before r := by
  simp only [Before] at *
  omega

theorem before_next (p : Position) (c : Char) : p.Before (p.next c) := by
  unfold next
  split
  · exact .inl (Nat.lt_succ_self _)
  · exact .inr ⟨rfl, Nat.lt_succ_self _⟩

/-- Behind a text that is not empty, places are later. -/
theorem before_after_cons (p : Position) (c : Char) (cs : List Char) :
    p.Before (p.after (c :: cs)) := by
  induction cs generalizing p c with
  | nil => exact before_next p c
  | cons d cs ih => exact (before_next p c).trans (ih (p.next c) d)

end Position

namespace Source

/-! ### Places of the full text -/

/-- A piece of one line stands at a place of a text, and starts before the first `;` of its line. -/
def StandsAt (cs : List Char) (p : Position) (piece : List Char) : Prop :=
  ∃ i j line, p = ⟨i + 1, j + 1⟩ ∧ (cs.splitOn '\n')[i]? = some line ∧ piece <+: line.drop j ∧
    j < (line.takeWhile (· ≠ ';')).length

/-- A token of a text without comments is decoded from the longest lexeme at its place. -/
def DecodedFrom (code : List Char) (t : LocatedToken) (l : Lexeme) : Prop :=
  ∃ before after, code = before ++ (l.spelling ++ after) ∧
    t.position = Position.start.after before ∧ l.Longest (l.spelling ++ after) ∧
    l.Decodes t.token

theorem splitOn_codeOf (cs : List Char) :
    (codeOf cs).splitOn '\n' = (cs.splitOn '\n').map beforeComment := by
  refine List.splitOn_intercalate '\n' ?_ (by simp)
  intro code hcode
  obtain ⟨line, hline, rfl⟩ := List.mem_map.1 hcode
  exact fun h => not_mem_of_mem_splitOn hline ((List.takeWhile_prefix _).subset h)

/-- **What stands at a place without comments** stands there in the full text, up to the end of the
line. -/
theorem standsAt_of_codeOf {cs before after : List Char} {c : Char} (piece : List Char)
    (h : codeOf cs = before ++ (c :: piece ++ after)) (hc : c ≠ '\n') :
    StandsAt cs (Position.start.after before) ((c :: piece).takeWhile (· ≠ '\n')) := by
  have hcode := getElem?_splitOn_count before (c :: piece ++ after)
  rw [← h, splitOn_codeOf, List.getElem?_map, Option.map_eq_some_iff] at hcode
  obtain ⟨line, hline, hbefore⟩ := hcode
  have hle : (c :: piece).takeWhile (· ≠ '\n') <+: (c :: piece ++ after).takeWhile (· ≠ '\n') := by
    rw [List.takeWhile_append]
    split
    · exact (List.takeWhile_prefix _).trans (List.prefix_append _ _)
    · exact List.prefix_refl _
  have hdrop : (beforeComment line).drop (before.rtakeWhile (· ≠ '\n')).length =
      (c :: piece ++ after).takeWhile (· ≠ '\n') := by
    rw [hbefore, List.drop_left]
  refine ⟨_, _, line, Position.start_after before, hline, ?_, ?_⟩
  · refine hle.trans ?_
    rw [← hdrop]
    exact (List.takeWhile_prefix _).drop _
  · show _ < (beforeComment line).length
    rw [hbefore, List.length_append, List.cons_append,
      List.takeWhile_cons_of_pos (by simpa using hc)]
    simp

theorem takeWhile_ne_newline {cs : List Char} (h : '\n' ∉ cs) : cs.takeWhile (· ≠ '\n') = cs := by
  refine List.takeWhile_eq_self_iff.2 fun c hc => ?_
  have hne : c ≠ '\n' := ne_of_mem_of_not_mem hc h
  simpa using hne

/-! ### Places of tokens -/

/-- What is read makes up the text in front of the rest. -/
theorem Reads.exists_append {p q : Position} {cs rest : List Char} {ts : List LocatedToken}
    (h : Reads p cs ts q rest) : ∃ before, cs = before ++ rest ∧ q = p.after before := by
  induction h with
  | nil p cs => exact ⟨[], rfl, rfl⟩
  | @cons p q blank cs rest l t ts _ _ _ _ ih =>
      obtain ⟨before, rfl, rfl⟩ := ih
      exact ⟨blank ++ l.spelling ++ before, by simp, by simp⟩

/-- Every token that is read stands at the place of its lexeme. -/
theorem Reads.exists_lexeme {p q : Position} {cs rest : List Char} {ts : List LocatedToken}
    (h : Reads p cs ts q rest) : ∀ t ∈ ts, ∃ (l : Lexeme) (before after : List Char),
      cs = before ++ (l.spelling ++ after) ∧ t.position = p.after before ∧
        l.Longest (l.spelling ++ after) ∧ l.Decodes t.token := by
  induction h with
  | nil => simp
  | @cons p q blank cs rest l t ts _ hl ht _ ih =>
      intro u hu
      rcases List.mem_cons.1 hu with rfl | hu
      · exact ⟨l, blank, cs, rfl, rfl, hl, ht⟩
      · obtain ⟨l', before, after, rfl, hp, hl', ht'⟩ := ih u hu
        exact ⟨l', blank ++ l.spelling ++ before, after, by simp, by simp [hp], hl', ht'⟩

/-- **The positions of tokens ascend.** -/
theorem Reads.pairwise_before {p q : Position} {cs rest : List Char} {ts : List LocatedToken}
    (h : Reads p cs ts q rest) : ts.Pairwise fun t u => t.position.Before u.position := by
  induction h with
  | nil => exact .nil
  | @cons p q blank cs rest l t ts _ hl _ hrest ih =>
      refine .cons (fun u hu => ?_) ih
      obtain ⟨_, before, _, -, hp, -⟩ := hrest.exists_lexeme u hu
      obtain ⟨c, ds, hs, -⟩ := exists_front?_of_longest hl
      rw [hp, Position.after_append, ← Position.after_append, hs, List.cons_append]
      exact Position.before_after_cons _ _ _

/-- Where a token is decoded from a lexeme, the full text has the first line of the lexeme. -/
theorem DecodedFrom.standsAt {cs : List Char} {t : LocatedToken} {l : Lexeme}
    (h : DecodedFrom (codeOf cs) t l) :
    StandsAt cs t.position (l.spelling.takeWhile (· ≠ '\n')) := by
  obtain ⟨before, after, hcode, hp, hl, -⟩ := h
  obtain ⟨c, ds, hs, hc, -⟩ := exists_front?_of_longest hl
  have hne : c ≠ '\n' := ne_of_apply_ne isSpace (by rw [hc]; decide)
  rw [hp, hs]
  rw [hs] at hcode
  exact standsAt_of_codeOf ds hcode hne

/-- That is the whole lexeme, unless it is a text operand of several lines. -/
theorem DecodedFrom.standsAt_spelling {cs : List Char} {t : LocatedToken} {l : Lexeme}
    (h : DecodedFrom (codeOf cs) t l) :
    (∃ contents, l = .string contents ∧ '\n' ∈ contents) ∨ StandsAt cs t.position l.spelling := by
  by_cases hline : '\n' ∈ l.spelling
  · obtain ⟨_, _, -, -, hl, -⟩ := h
    obtain ⟨contents, rfl⟩ := Lexeme.exists_eq_string_of_mem hl.valid hline
    exact .inl ⟨contents, rfl, by simpa [Lexeme.spelling] using hline⟩
  · have hstands := h.standsAt
    rw [takeWhile_ne_newline hline] at hstands
    exact .inr hstands

/-! ### Places of errors -/

/-- Where a text breaks off, the full text has what the cause says. -/
theorem Breaks.standsAt {cs before rest : List Char} {cause : SyntaxError.Cause}
    (h : Breaks rest cause) (hcode : codeOf cs = before ++ rest) :
    (cause = .unterminatedString ∧ StandsAt cs (Position.start.after before) ['"']) ∨
      ∃ found, (cause = .unrecognizedInput found ∨ cause = .numberOutOfRange found) ∧
        StandsAt cs (Position.start.after before) found.toList := by
  cases h with
  | @numberOutOfRange l after hl hr =>
      refine .inr ⟨_, .inr rfl, ?_⟩
      have hline : '\n' ∉ l.spelling := by
        intro hmem
        obtain ⟨contents, rfl⟩ := Lexeme.exists_eq_string_of_mem hl.valid hmem
        exact hr trivial
      obtain ⟨c, ds, hs, -⟩ := exists_front?_of_longest hl
      rw [hs] at hcode hline
      have hne : c ≠ '\n' := (List.ne_of_not_mem_cons hline).symm
      have hstands := standsAt_of_codeOf ds hcode hne
      rw [takeWhile_ne_newline hline, ← hs] at hstands
      rwa [String.toList_ofList]
  | unterminatedString =>
      exact .inl ⟨rfl, standsAt_of_codeOf [] hcode (by decide)⟩
  | @unrecognizedInput c after hs hc _ =>
      have hne : c ≠ '\n' := ne_of_apply_ne isSpace (by rw [hs]; decide)
      have hstands := standsAt_of_codeOf [] hcode hne
      refine .inr ⟨_, .inl rfl, ?_⟩
      simpa [hne] using hstands

/-- **Positions point into the source text as it was written.** For every source text:

* Each token has a lexeme that it is decoded from, at its place without comments. There the full
  text has that lexeme too, or its first line if it is a text operand of several lines, and the
  place is before the first `;` of its line. The positions of the tokens ascend.
* An error has a place. There the full text has what the error says, or a quote if one is not
  closed. -/
theorem tokens_positions (source : String) :
    (∀ ts, tokens source = .ok ts →
      (∀ t ∈ ts, (∃ l, DecodedFrom (codeOf source.toList) t l) ∧
        ∀ l, DecodedFrom (codeOf source.toList) t l →
          StandsAt source.toList t.position (l.spelling.takeWhile (· ≠ '\n')) ∧
          ((∃ contents, l = .string contents ∧ '\n' ∈ contents) ∨
            StandsAt source.toList t.position l.spelling)) ∧
      ts.Pairwise fun t u => t.position.Before u.position) ∧
    ∀ e, tokens source = .error e → ∃ p, e.position? = some p ∧
      ((e.cause = .unterminatedString ∧ StandsAt source.toList p ['"']) ∨
        ∃ found, (e.cause = .unrecognizedInput found ∨ e.cause = .numberOutOfRange found) ∧
          StandsAt source.toList p found.toList) := by
  refine ⟨fun ts h => ?_, fun e h => ?_⟩
  · obtain ⟨q, blank, hr, -⟩ := readsAll_of_tokens h
    exact ⟨fun t ht => ⟨hr.exists_lexeme t ht, fun l hl => ⟨hl.standsAt, hl.standsAt_spelling⟩⟩,
      hr.pairwise_before⟩
  · obtain ⟨ts, q, blank, rest, cause, hr, -, hb, rfl⟩ := breaksOff_of_tokens h
    obtain ⟨before, hcode, rfl⟩ := hr.exists_append
    rw [← List.append_assoc] at hcode
    refine ⟨_, rfl, ?_⟩
    rw [← Position.after_append]
    exact hb.standsAt hcode

/-- A text with a comment, a tab and an operand of two lines, and one with a number out of range
below a comment with a quote in it. -/
theorem tokens_positions_of_lines :
    let source := "p ; é\n\t\"a\nb\" 7"
    let ts : List LocatedToken :=
      [⟨.identifier "p", ⟨1, 1⟩⟩, ⟨.string "a\nb", ⟨2, 2⟩⟩, ⟨.integer 7, ⟨3, 4⟩⟩]
    let broken := "p ; \"\n 99999999999999999999"
    let e : SyntaxError := ⟨.numberOutOfRange "99999999999999999999", none, some ⟨2, 2⟩⟩
    (tokens source = .ok ts ∧
      (∀ t ∈ ts, ∃ l, DecodedFrom (codeOf source.toList) t l ∧
        StandsAt source.toList t.position (l.spelling.takeWhile (· ≠ '\n'))) ∧
      ts.Pairwise fun t u => t.position.Before u.position) ∧
    tokens broken = .error e ∧
      StandsAt broken.toList ⟨2, 2⟩ "99999999999999999999".toList := by
  intro source ts broken e
  have hts : tokens source = .ok ts := by decide +kernel
  have he : tokens broken = .error e := by decide +kernel
  obtain ⟨hplaces, hascend⟩ := (tokens_positions source).1 ts hts
  obtain ⟨p, hp, herror⟩ := (tokens_positions broken).2 e he
  refine ⟨⟨hts, fun t ht => ?_, hascend⟩, he, ?_⟩
  · obtain ⟨⟨l, hl⟩, hstands⟩ := hplaces t ht
    exact ⟨l, hl, (hstands l hl).1⟩
  · rcases herror with ⟨hcause, -⟩ | ⟨found, hcause | hcause, hstands⟩
    · cases hcause
    · cases hcause
    · cases hp
      cases hcause
      exact hstands

end Source

end GridLang
