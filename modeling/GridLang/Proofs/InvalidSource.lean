import GridLang.Proofs.Positions

/-!
# GridLang.Proofs.InvalidSource

**Invalid input stays invalid**, however one goes on typing on the next line. An error that more
text could not mend is still reported, unless the text that comes below has an error in a lexeme,
which is reported first.

* `Source.Breaks.append_line`: an error in a lexeme stays where it is, since a line feed ends every
  lexeme. A quote that is not closed is the exception, and it calls the text incomplete.
* `Script.ofTokens_append_of_located`: the reader of tokens stops at an error that has a place.
* `Script.read_eq_error_cases`: the two kinds of errors are told apart by their cause
  (`SyntaxError.Cause.IsLexical`).
-/

namespace GridLang

/-- The cause of an error in a lexeme, and not in the order of tokens. -/
def SyntaxError.Cause.IsLexical : SyntaxError.Cause → Prop
  | unrecognizedInput _ | unterminatedString | numberOutOfRange _ => True
  | _ => False

theorem SyntaxError.isIncomplete_eq_false_iff {e : SyntaxError} :
    e.isIncomplete = false ↔ e.position? ≠ none ∧ e.cause ≠ .unterminatedString := by
  cases h : e.position? <;> simp [isIncomplete, h]

/-! ### Errors in lexemes -/

namespace Source

theorem Breaks.isLexical {cs : List Char} {cause : SyntaxError.Cause} (h : Breaks cs cause) :
    cause.IsLexical := by
  cases h <;> trivial

/-- **Where a text breaks**, it breaks as well if it goes on in the next line. -/
theorem Breaks.append_line {cs : List Char} {cause : SyntaxError.Cause} (h : Breaks cs cause)
    (hclosed : cause ≠ .unterminatedString) (ds : List Char) :
    Breaks (cs ++ '\n' :: ds) cause := by
  cases h with
  | numberOutOfRange hl hr =>
      rw [List.append_assoc]
      exact .numberOutOfRange (hl.append_line ds) hr
  | unterminatedString => exact absurd rfl hclosed
  | @unrecognizedInput c cs hs hc hnone =>
      refine .unrecognizedInput hs hc ?_
      intro l hv hp
      have hp : l.spelling <+: (c :: cs) ++ '\n' :: ds := hp
      rcases Lexeme.prefix_append_line_cases hv hp with hle | ⟨_, _, rfl, hmore⟩
      · exact hnone l hv hle
      · -- A text operand would start with a quote.
        exact hc (List.cons.inj hmore).1.symm

/-- **An error in a lexeme** is still there if the text goes on in the next line. -/
theorem tokens_append_line_of_error {a : String} {e : SyntaxError} (h : tokens a = .error e)
    (hclosed : e.cause ≠ .unterminatedString) (b : String) :
    tokens (a ++ "\n" ++ b) = .error e := by
  obtain ⟨ts, q, blank, rest, cause, hr, hb, hbr, rfl⟩ := breaksOff_of_tokens h
  refine BreaksOff.tokens ⟨ts, q, blank, _, cause, ?_, hb,
    hbr.append_line hclosed (codeOf b.toList), rfl⟩
  rw [toList_append_line, codeOf_append_line, ← List.append_assoc]
  exact hr.append_line _

/-- An error in a lexeme has a place on a line of the text. -/
theorem exists_position_of_tokens {source : String} {e : SyntaxError}
    (h : tokens source = .error e) :
    e.cause.IsLexical ∧ ∃ p, e.position? = some p ∧ 1 ≤ p.line := by
  obtain ⟨ts, q, blank, rest, cause, hr, -, hbr, rfl⟩ := breaksOff_of_tokens h
  obtain ⟨before, -, rfl⟩ := hr.exists_append
  refine ⟨hbr.isLexical, _, rfl, ?_⟩
  rw [← Position.after_append, Position.start_after]
  exact Nat.le_add_left _ _

end Source

/-! ### Errors in the order of tokens -/

theorem Expected.not_isLexical_of_take {expected : Expected} {t : Token}
    {cause : SyntaxError.Cause} (h : expected.take t = .error cause) : ¬ cause.IsLexical := by
  cases expected with
  | _ =>
      dsimp only [take] at h
      split at h <;> cases h
      all_goals exact id

theorem Reader.not_isLexical_of_feed {r : Reader} {t : LocatedToken} {e : SyntaxError}
    (h : r.feed t = .error e) : ¬ e.cause.IsLexical := by
  cases r with
  | between script =>
      dsimp only [feed] at h
      split at h <;> cases h
      exact id
  | opened script =>
      dsimp only [feed] at h
      split at h <;> cases h
      all_goals exact id
  | inside script draft =>
      dsimp only [feed] at h
      split at h
      next cause hc =>
        cases h
        exact Expected.not_isLexical_of_take hc
      · cases h
      · cases h
      · split at h <;> cases h
        exact id

theorem Reader.not_isLexical_of_finish {r : Reader} {e : SyntaxError} (h : r.finish = .error e) :
    ¬ e.cause.IsLexical := by
  cases r with
  | between => cases h
  | opened => cases h; exact id
  | inside script draft =>
      cases h
      cases draft.expected <;> exact id

namespace Script

theorem not_isLexical_of_ofTokens {ts : List LocatedToken} {e : SyntaxError}
    (h : ofTokens ts = .error e) : ¬ e.cause.IsLexical := by
  rcases ofTokens_eq_error_cases h with ⟨_, -, he⟩ | ⟨_, _, _, _, -, -, he⟩
  · exact Reader.not_isLexical_of_finish he
  · exact Reader.not_isLexical_of_feed he

/-- **An error with a place** does not depend on the tokens that come behind. -/
theorem ofTokens_append_of_located {ts : List LocatedToken} {e : SyntaxError}
    (h : ofTokens ts = .error e) (hlocated : e.position? ≠ none) (us : List LocatedToken) :
    ofTokens (ts ++ us) = .error e := by
  rcases ofTokens_eq_error_cases h with ⟨_, -, he⟩ | ⟨pre, t, post, r, rfl, hr, he⟩
  · exact absurd (Reader.position?_of_finish he) hlocated
  · rw [List.append_assoc, List.cons_append]
    exact ofTokens_of_feed_eq_error hr he _

/-- **An error of a source text** is one in a lexeme, or all of the text is made of tokens and it is
one in their order. The cause tells which. -/
theorem read_eq_error_cases {source : String} {e : SyntaxError} (h : read source = .error e) :
    (Source.tokens source = .error e ∧ e.cause.IsLexical) ∨
      ∃ ts, Source.tokens source = .ok ts ∧ ofTokens ts = .error e ∧ ¬ e.cause.IsLexical := by
  cases hts : Source.tokens source with
  | error e' =>
      rw [read, hts] at h
      cases h
      exact .inl ⟨rfl, (Source.exists_position_of_tokens hts).1⟩
  | ok ts =>
      rw [read, hts] at h
      exact .inr ⟨ts, rfl, h, not_isLexical_of_ofTokens h⟩

theorem read_of_tokens_eq_error {source : String} {e : SyntaxError}
    (h : Source.tokens source = .error e) : read source = .error e := by
  rw [read, h]
  rfl

end Script

/-- **Invalid input stays invalid.** If more text could not mend the error of a source text, then
every text with more lines below has an error. It is the same one, if that is an error in a lexeme
or if all of the longer text is made of tokens. Otherwise it is an error in a lexeme, on a line
below the first text. -/
theorem read_append_line_of_invalid {source : String} {e : SyntaxError}
    (h : Script.read source = .error e) (hinvalid : e.isIncomplete = false) (more : String) :
    ∃ e', Script.read (source ++ "\n" ++ more) = .error e' ∧
      (e.cause.IsLexical ∨ (∃ ts, Source.tokens (source ++ "\n" ++ more) = .ok ts) → e' = e) ∧
      (¬ e.cause.IsLexical → (¬ ∃ ts, Source.tokens (source ++ "\n" ++ more) = .ok ts) →
        e'.cause.IsLexical ∧
          ∃ p, e'.position? = some p ∧ source.toList.count '\n' + 1 < p.line) := by
  obtain ⟨hlocated, hclosed⟩ := SyntaxError.isIncomplete_eq_false_iff.1 hinvalid
  rcases Script.read_eq_error_cases h with ⟨htokens, hlexical⟩ | ⟨ts, hts, he, hlexical⟩
  · have hmore := Source.tokens_append_line_of_error htokens hclosed more
    refine ⟨e, Script.read_of_tokens_eq_error hmore, fun _ => rfl, ?_⟩
    intro hnot
    exact absurd hlexical hnot
  · have htokens := Source.tokens_append_line hts more
    cases hus : Source.tokens more with
    | ok us =>
        rw [hus] at htokens
        refine ⟨e, ?_, fun _ => rfl, ?_⟩
        · rw [Script.read, htokens]
          exact Script.ofTokens_append_of_located he hlocated _
        · intro _ hnone
          exact absurd ⟨_, htokens⟩ hnone
    | error e' =>
        rw [hus] at htokens
        obtain ⟨hlexical', p, hp, hline⟩ := Source.exists_position_of_tokens hus
        refine ⟨_, Script.read_of_tokens_eq_error htokens, ?_, ?_⟩
        · rintro (hyes | ⟨us, hus'⟩)
          · exact absurd hyes hlexical
          · rw [hus'] at htokens
            cases htokens
        · intro _ _
          refine ⟨hlexical', p.moveDown (source.toList.count '\n' + 1), ?_, ?_⟩
          · rw [SyntaxError.moveDown, hp]
            rfl
          · show _ < p.line + (source.toList.count '\n' + 1)
            omega

/-- A second definition inside the first one is reported, until there is a number out of range
below. An unknown character is reported in any case. -/
theorem read_append_line_of_invalid_nested :
    let source := "program p\n  program"
    let e : SyntaxError := ⟨.unknownInstruction "program", some "p", some ⟨2, 3⟩⟩
    let unknown := "program p ?"
    let e' : SyntaxError := ⟨.unrecognizedInput "?", none, some ⟨1, 11⟩⟩
    (Script.read source = .error e ∧ Script.read (source ++ "\n" ++ "program-end") = .error e ∧
      ∃ below, Script.read (source ++ "\n" ++ "99999999999999999999") = .error below ∧
        below.cause.IsLexical ∧ ∃ p, below.position? = some p ∧ 2 < p.line) ∧
      Script.read unknown = .error e' ∧ Script.read (unknown ++ "\n" ++ "\"") = .error e' := by
  intro source e unknown e'
  have hsource : Script.read source = .error e := by decide +kernel
  have hunknown : Script.read unknown = .error e' := by decide +kernel
  obtain ⟨first, hfirst, hsame, -⟩ := read_append_line_of_invalid hsource rfl "program-end"
  obtain ⟨below, hbelow, -, hlexical⟩ :=
    read_append_line_of_invalid hsource rfl "99999999999999999999"
  obtain ⟨second, hsecond, hsame', -⟩ := read_append_line_of_invalid hunknown rfl "\""
  have hwhole : ∃ ts, Source.tokens (source ++ "\n" ++ "program-end") = .ok ts :=
    ⟨[⟨.keyword .program, ⟨1, 1⟩⟩, ⟨.identifier "p", ⟨1, 9⟩⟩, ⟨.keyword .program, ⟨2, 3⟩⟩,
      ⟨.keyword .programEnd, ⟨3, 1⟩⟩], by decide +kernel⟩
  have hbroken : ¬ ∃ ts, Source.tokens (source ++ "\n" ++ "99999999999999999999") = .ok ts := by
    have hcases : (Source.tokens (source ++ "\n" ++ "99999999999999999999")).toOption = none := by
      decide +kernel
    rintro ⟨ts, hts⟩
    rw [hts] at hcases
    cases hcases
  have hlines : source.toList.count '\n' + 1 = 2 := by decide
  rw [hlines] at hlexical
  obtain rfl := hsame (.inr hwhole)
  obtain rfl := hsame' (.inl trivial)
  exact ⟨⟨hsource, hfirst, below, hbelow, hlexical id hbroken⟩, hunknown, hsecond⟩

end GridLang
