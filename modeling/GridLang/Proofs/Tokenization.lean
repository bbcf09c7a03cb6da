import GridLang.Proofs.Numerals
import GridLang.Source

/-!
# GridLang.Proofs.Tokenization

**The tokens of a source text are its longest lexemes.** What reading from left to right does is
said here as a relation on texts (`Source.Reads`): white space, then the longest lexeme that the
rest starts with, then white space again, and so on, each lexeme decoded to its token. A text goes
on like this to its end, or breaks off where the rest starts with no lexeme or with a number out of
range (`Source.Breaks`).

The main result is `tokens_longest`: every source text, without its comments, is read to its end or
breaks off; its tokens are exactly those of the first case, and its error exactly that of the
second.

* `withoutComments_eq` says what is left without comments: on each line, all before the first `;`.
* `Lexeme.token?_eq_some_iff` and `token?_eq_none_iff` say what a lexeme is decoded to, by the value
  of its digits.
* `Reads.tokensFrom` follows the relation, and `exists_reads` shows that it covers every text.
-/

namespace GridLang

/-! ### What a lexeme is decoded to -/

namespace Lexeme

/-- A token is what a lexeme stands for. -/
inductive Decodes : Lexeme → Token → Prop
  | keyword (k : Keyword) : Decodes (.keyword k) (.keyword k)
  | cell {row col : List Char} {a : Address} : a.row.toNat = Numeral.value row →
      a.col.toNat = Numeral.value col → Decodes (.cell row col) (.cell a)
  | assign : Decodes .assign .assign
  | comparator (c : Comparator) : Decodes (.comparator c) (.comparator c)
  | comma : Decodes .comma .comma
  | string (contents : List Char) : Decodes (.string contents) (.string (String.ofList contents))
  | integer {digits : List Char} {n : Int64} : n.toInt = Numeral.value digits →
      Decodes (.integer digits) (.integer n)
  | identifier (name : List Char) : Decodes (.identifier name) (.identifier (String.ofList name))

/-- No number of a lexeme is above the largest of its kind. -/
def InRange : Lexeme → Prop
  | cell row col => Numeral.value row ≤ Numeral.largestUInt64 ∧
      Numeral.value col ≤ Numeral.largestUInt64
  | integer digits => Numeral.value digits ≤ Numeral.largestInt64
  | _ => True

theorem token?_eq_some_iff {l : Lexeme} {t : Token} (hv : l.Valid) :
    l.token? = some t ↔ l.Decodes t := by
  cases l with
  | cell row col =>
      rw [token?]
      constructor
      · intro h
        split at h
        next r c hr hc =>
          cases h
          exact .cell ((Numeral.readUInt64_of_isDigits hv.1).1 hr)
            ((Numeral.readUInt64_of_isDigits hv.2).1 hc)
        next => cases h
      · intro h
        cases h with
        | cell hr hc =>
            rw [(Numeral.readUInt64_of_isDigits hv.1).2 hr,
              (Numeral.readUInt64_of_isDigits hv.2).2 hc]
  | integer digits =>
      rw [token?]
      constructor
      · intro h
        split at h
        next n hn =>
          cases h
          exact .integer ((Numeral.readInt64_of_isDigits hv).1 hn)
        next => cases h
      · intro h
        cases h with
        | integer hn => rw [(Numeral.readInt64_of_isDigits hv).2 hn]
  | keyword | assign | comparator | comma | string | identifier =>
      constructor
      · intro h
        cases h
        constructor
      · intro h
        cases h
        rfl

/-- A lexeme has a token exactly if its numbers are in range. -/
theorem exists_decodes_iff {l : Lexeme} : (∃ t, l.Decodes t) ↔ l.InRange := by
  cases l with
  | cell row col =>
      constructor
      · rintro ⟨t, h⟩
        cases h with
        | @cell _ _ a hr hc =>
            exact ⟨hr ▸ Nat.le_of_lt_succ a.row.toNat_lt, hc ▸ Nat.le_of_lt_succ a.col.toNat_lt⟩
      · rintro ⟨hr, hc⟩
        exact ⟨.cell ⟨.ofNat (Numeral.value row), .ofNat (Numeral.value col)⟩,
          .cell (UInt64.toNat_ofNat_of_lt' (Nat.lt_succ_of_le hr))
            (UInt64.toNat_ofNat_of_lt' (Nat.lt_succ_of_le hc))⟩
  | integer digits =>
      constructor
      · rintro ⟨t, h⟩
        cases h with
        | @integer _ n hn =>
            have hlt : n.toInt < 9223372036854775808 := n.toInt_lt
            rw [hn] at hlt
            show Numeral.value digits ≤ 9223372036854775807
            omega
      · intro h
        have hle : Numeral.value digits ≤ 9223372036854775807 := h
        exact ⟨.integer (.ofInt (Numeral.value digits)),
          .integer (Int64.toInt_ofInt_of_le (by omega) (by omega))⟩
  | keyword | assign | comparator | comma | string | identifier =>
      exact ⟨fun _ => trivial, fun _ => ⟨_, by constructor⟩⟩

theorem token?_eq_none_iff {l : Lexeme} (hv : l.Valid) : l.token? = none ↔ ¬ l.InRange := by
  rw [← exists_decodes_iff, Option.eq_none_iff_forall_ne_some]
  simp only [ne_eq, token?_eq_some_iff hv, not_exists]

end Lexeme

namespace Source

/-! ### Text without comments -/

/-- What stands on a line before the first `;`. -/
def beforeComment (line : List Char) : List Char := line.takeWhile (· ≠ ';')

/-- A text with only what stands on each line before the first `;`. -/
def codeOf (cs : List Char) : List Char :=
  ['\n'].intercalate ((cs.splitOn '\n').map beforeComment)

@[simp] theorem beforeComment_nil : beforeComment [] = [] := rfl

theorem beforeComment_semicolon (line : List Char) : beforeComment (';' :: line) = [] := rfl

theorem beforeComment_cons {c : Char} (line : List Char) (h : c ≠ ';') :
    beforeComment (c :: line) = c :: beforeComment line :=
  List.takeWhile_cons_of_pos (by simpa using h)

/-- Inside a comment, nothing of the first line is left. -/
theorem copyOutsideComment_eq (inside : Bool) (cs : List Char) :
    copyOutsideComment inside cs =
      ['\n'].intercalate (((cs.splitOn '\n').map beforeComment).modifyHead
        fun line => if inside then [] else line) := by
  induction cs generalizing inside with
  | nil => simp [copyOutsideComment]
  | cons c cs ih =>
      obtain ⟨line, lines, hl⟩ := List.exists_cons_of_ne_nil (List.splitOn_ne_nil '\n' cs)
      rw [hl] at ih
      rw [copyOutsideComment, List.splitOn_cons_eq_if_modifyHead, hl]
      by_cases hc : c = '\n'
      · simp [hc, ih]
      · cases inside with
        | true => simp [hc, ih]
        | false =>
            by_cases hs : c = ';'
            · simp [hs, ih, beforeComment_semicolon]
            · cases lines <;> simp [hc, hs, ih, beforeComment_cons]

theorem withoutComments_eq (cs : List Char) : withoutComments cs = codeOf cs := by
  rw [withoutComments, copyOutsideComment_eq, codeOf]
  cases (cs.splitOn '\n').map beforeComment <;> rfl

/-! ### Reading from left to right -/

/-- White space and nothing else. -/
def IsBlank (cs : List Char) : Prop := ∀ c ∈ cs, isSpace c = true

/-- The text at `p` starts with some tokens, each written as the longest lexeme behind white space,
and goes on at `q`. -/
inductive Reads : Position → List Char → List LocatedToken → Position → List Char → Prop
  | nil (p : Position) (cs : List Char) : Reads p cs [] p cs
  | cons {p q : Position} {blank cs rest : List Char} {l : Lexeme} {t : Token}
      {ts : List LocatedToken} : IsBlank blank → l.Longest (l.spelling ++ cs) → l.Decodes t →
      Reads (p.after (blank ++ l.spelling)) cs ts q rest →
      Reads p (blank ++ (l.spelling ++ cs)) (⟨t, p.after blank⟩ :: ts) q rest

/-- No token can be read where a text starts. -/
inductive Breaks : List Char → SyntaxError.Cause → Prop
  | numberOutOfRange {l : Lexeme} {cs : List Char} : l.Longest (l.spelling ++ cs) → ¬ l.InRange →
      Breaks (l.spelling ++ cs) (.numberOutOfRange (String.ofList l.spelling))
  | unterminatedString {cs : List Char} :
      (∀ l : Lexeme, l.Valid → ¬ l.spelling <+: '"' :: cs) → Breaks ('"' :: cs) .unterminatedString
  | unrecognizedInput {c : Char} {cs : List Char} : isSpace c = false → c ≠ '"' →
      (∀ l : Lexeme, l.Valid → ¬ l.spelling <+: c :: cs) →
      Breaks (c :: cs) (.unrecognizedInput (String.singleton c))

/-- A text is read to its end. -/
def ReadsAll (cs : List Char) (ts : List LocatedToken) : Prop :=
  ∃ q blank, Reads .start cs ts q blank ∧ IsBlank blank

/-- A text is read up to the place of an error. -/
def BreaksOff (cs : List Char) (e : SyntaxError) : Prop :=
  ∃ ts q blank rest cause, Reads .start cs ts q (blank ++ rest) ∧ IsBlank blank ∧
    Breaks rest cause ∧ e = ⟨cause, none, some (q.after blank)⟩

theorem front?_of_isSpace {c : Char} (cs : List Char) (h : isSpace c = true) :
    Lexeme.front? (c :: cs) = none := by
  simp only [isSpace, Bool.or_eq_true, decide_eq_true_eq] at h
  rcases h with ((((rfl | rfl) | rfl) | rfl) | rfl) | rfl <;> rfl

theorem isSpace_eq_false_of_front? {c : Char} {cs : List Char} {found : Lexeme × List Char}
    (h : Lexeme.front? (c :: cs) = some found) : isSpace c = false := by
  rw [Bool.eq_false_iff]
  intro hc
  rw [front?_of_isSpace cs hc] at h
  cases h

theorem tokensFrom_of_isBlank {p : Position} {blank : List Char} (cs : List Char)
    (h : IsBlank blank) : tokensFrom p (blank ++ cs) = tokensFrom (p.after blank) cs := by
  induction blank generalizing p with
  | nil => rfl
  | cons c blank ih =>
      rw [List.cons_append, tokensFrom_of_isSpace (h c List.mem_cons_self),
        ih fun d hd => h d (List.mem_cons_of_mem c hd), Position.after_cons]

/-- A longest lexeme is what the scanner finds, and no white space stands in front of it. -/
theorem exists_front?_of_longest {l : Lexeme} {cs : List Char}
    (h : l.Longest (l.spelling ++ cs)) :
    ∃ c ds, l.spelling = c :: ds ∧ isSpace c = false ∧
      Lexeme.front? (c :: (ds ++ cs)) = some (l, cs) := by
  have hf := Lexeme.front?_eq_some_iff.2 h
  obtain ⟨c, ds, hl⟩ := List.exists_cons_of_ne_nil (Lexeme.spelling_ne_nil_of_front? hf)
  rw [hl, List.cons_append] at hf
  exact ⟨c, ds, hl, isSpace_eq_false_of_front? hf, hf⟩

theorem tokensFrom_of_decodes {p : Position} {l : Lexeme} {t : Token} {cs : List Char}
    (h : l.Longest (l.spelling ++ cs)) (ht : l.Decodes t) :
    tokensFrom p (l.spelling ++ cs) =
      (tokensFrom (p.after l.spelling) cs).map (⟨t, p⟩ :: ·) := by
  obtain ⟨c, ds, hl, hc, hf⟩ := exists_front?_of_longest h
  rw [hl, List.cons_append,
    tokensFrom_of_token? hc hf ((Lexeme.token?_eq_some_iff h.valid).2 ht), hl]

/-- What is read stands in front of what the rest gives. -/
theorem Reads.tokensFrom {p q : Position} {cs rest : List Char} {ts : List LocatedToken}
    (h : Reads p cs ts q rest) :
    Source.tokensFrom p cs = (Source.tokensFrom q rest).map (ts ++ ·) := by
  induction h with
  | nil p cs => cases Source.tokensFrom p cs <;> rfl
  | @cons p q blank cs rest l t ts hb hl ht _ ih =>
      rw [tokensFrom_of_isBlank _ hb, tokensFrom_of_decodes hl ht, ← Position.after_append, ih]
      cases Source.tokensFrom q rest <;> rfl

theorem Breaks.tokensFrom {p : Position} {cs : List Char} {cause : SyntaxError.Cause}
    (h : Breaks cs cause) : Source.tokensFrom p cs = .error ⟨cause, none, some p⟩ := by
  cases h with
  | @numberOutOfRange l cs hl hr =>
      have ht := (Lexeme.token?_eq_none_iff hl.valid).2 hr
      obtain ⟨c, ds, hs, hc, hf⟩ := exists_front?_of_longest hl
      rw [hs, List.cons_append, tokensFrom_of_token?_eq_none hc hf ht, hs]
  | unterminatedString h =>
      exact tokensFrom_of_front?_eq_none (by decide) (Lexeme.front?_eq_none_iff.2 h)
  | @unrecognizedInput c cs hs hc h =>
      rw [tokensFrom_of_front?_eq_none hs (Lexeme.front?_eq_none_iff.2 h), noLexeme, if_neg hc]

/-- Where no white space is, a text breaks or goes on with a token. -/
theorem breaks_or_decodes {c : Char} (cs : List Char) (h : isSpace c = false) :
    (∃ cause, Breaks (c :: cs) cause) ∨
      ∃ (l : Lexeme) (t : Token) (rest : List Char),
        Lexeme.front? (c :: cs) = some (l, rest) ∧ l.Decodes t := by
  cases hf : Lexeme.front? (c :: cs) with
  | none =>
      have none := Lexeme.front?_eq_none_iff.1 hf
      by_cases hc : c = '"'
      · subst hc
        exact .inl ⟨_, .unterminatedString none⟩
      · exact .inl ⟨_, .unrecognizedInput h hc none⟩
  | some found =>
      obtain ⟨l, rest⟩ := found
      by_cases hr : l.InRange
      · obtain ⟨t, ht⟩ := Lexeme.exists_decodes_iff.2 hr
        exact .inr ⟨l, t, rest, rfl, ht⟩
      · have hl := Lexeme.longest_of_front? hf
        rw [← Lexeme.front?_eq hf] at hl ⊢
        exact .inl ⟨_, .numberOutOfRange hl hr⟩

/-- Every text is read to its end or breaks. -/
theorem exists_reads (p : Position) (cs : List Char) :
    ∃ ts q blank rest, Reads p cs ts q (blank ++ rest) ∧ IsBlank blank ∧
      (rest = [] ∨ ∃ cause, Breaks rest cause) := by
  induction hn : cs.length using Nat.strongRecOn generalizing p cs with
  | ind n ih =>
      have hcs := @List.takeWhile_append_dropWhile _ isSpace cs
      have hb : IsBlank (cs.takeWhile isSpace) := fun _ => List.mem_takeWhile_imp
      generalize cs.takeWhile isSpace = blank at hcs hb
      cases hd : cs.dropWhile isSpace with
      | nil =>
          rw [hd] at hcs
          refine ⟨[], p, blank, [], ?_, hb, .inl rfl⟩
          rw [hcs]
          exact .nil p cs
      | cons c ds =>
          have hc : isSpace c = false := by
            have h := List.head?_dropWhile_not isSpace cs
            rw [hd] at h
            simpa using h
          rw [hd] at hcs
          rcases breaks_or_decodes ds hc with hbr | ⟨l, t, after, hf, ht⟩
          · refine ⟨[], p, blank, c :: ds, ?_, hb, .inr hbr⟩
            rw [hcs]
            exact .nil p cs
          · -- The rest behind a lexeme is shorter than the text.
            have hlt : after.length < n := by
              have h := Lexeme.length_lt_of_front? hf
              rw [← hn, ← hcs, List.length_append]
              omega
            obtain ⟨ts, q, blank', rest, hr, hb', hend⟩ :=
              ih after.length hlt (p.after (blank ++ l.spelling)) after rfl
            have hl := Lexeme.longest_of_front? hf
            rw [← Lexeme.front?_eq hf] at hl hcs
            refine ⟨⟨t, p.after blank⟩ :: ts, q, blank', rest, ?_, hb', hend⟩
            rw [← hcs]
            exact .cons hb hl ht hr

theorem ReadsAll.tokens {source : String} {ts : List LocatedToken}
    (h : ReadsAll (codeOf source.toList) ts) : Source.tokens source = .ok ts := by
  obtain ⟨q, blank, hr, hb⟩ := h
  have hq := tokensFrom_of_isBlank [] hb (p := q)
  rw [List.append_nil, tokensFrom_nil] at hq
  rw [Source.tokens, withoutComments_eq, hr.tokensFrom, hq]
  exact congrArg Except.ok (List.append_nil ts)

theorem BreaksOff.tokens {source : String} {e : SyntaxError}
    (h : BreaksOff (codeOf source.toList) e) : Source.tokens source = .error e := by
  obtain ⟨ts, q, blank, rest, cause, hr, hb, hbr, rfl⟩ := h
  rw [Source.tokens, withoutComments_eq, hr.tokensFrom, tokensFrom_of_isBlank rest hb,
    hbr.tokensFrom]
  rfl

theorem readsAll_or_breaksOff (cs : List Char) :
    (∃ ts, ReadsAll cs ts) ∨ ∃ e, BreaksOff cs e := by
  obtain ⟨ts, q, blank, rest, hr, hb, rfl | ⟨cause, hbr⟩⟩ := exists_reads .start cs
  · rw [List.append_nil] at hr
    exact .inl ⟨ts, q, blank, hr, hb⟩
  · exact .inr ⟨_, ts, q, blank, rest, cause, hr, hb, hbr, rfl⟩

theorem readsAll_of_tokens {source : String} {ts : List LocatedToken}
    (h : tokens source = .ok ts) : ReadsAll (codeOf source.toList) ts := by
  rcases readsAll_or_breaksOff (codeOf source.toList) with ⟨ts', hts⟩ | ⟨e, he⟩
  · rw [hts.tokens] at h
    cases h
    exact hts
  · rw [he.tokens] at h
    cases h

theorem breaksOff_of_tokens {source : String} {e : SyntaxError}
    (h : tokens source = .error e) : BreaksOff (codeOf source.toList) e := by
  rcases readsAll_or_breaksOff (codeOf source.toList) with ⟨ts, hts⟩ | ⟨e', he⟩
  · rw [hts.tokens] at h
    cases h
  · rw [he.tokens] at h
    cases h
    exact he

/-- **The tokens of a source text are its longest lexemes.** Without its comments, every text is
read to its end or breaks off, and the first gives its tokens, the second its error. -/
theorem tokens_longest (source : String) :
    ((∃ ts, ReadsAll (codeOf source.toList) ts) ∨ ∃ e, BreaksOff (codeOf source.toList) e) ∧
      (∀ ts, tokens source = .ok ts ↔ ReadsAll (codeOf source.toList) ts) ∧
      ∀ e, tokens source = .error e ↔ BreaksOff (codeOf source.toList) e := by
  refine ⟨readsAll_or_breaksOff _, fun ts => ?_, fun e => ?_⟩
  · exact ⟨readsAll_of_tokens, ReadsAll.tokens⟩
  · exact ⟨breaksOff_of_tokens, BreaksOff.tokens⟩

end Source

end GridLang
