import GridLang.Proofs.Tokenization
import GridLang.Proofs.ViablePrefix

/-!
# GridLang.Proofs.JoinedSource

**Reading is compositional over lines.** If all of a source text is made of tokens, a second text
below it is read as if it stood alone: its tokens and errors are those it has on its own, so many
lines further down (`moveDown`). If both texts define scripts, the joined text defines the programs
of the first and then those of the second, unless a name is defined in both. Then the first
definition of the second text whose name is taken is refused, at the place of that name.

* `Lexeme.Longest.append_line`: a line feed ends every lexeme, so none reaches into the second text.
* `Source.tokensFrom_moveDown`: where a text stands decides about places only.
* `Reader.feedAll_taken`: a definition of a taken name is refused at the place of the name.
-/

namespace GridLang

/-! ### Further down -/

namespace Position

/-- The place `n` lines below, in the same column. -/
def moveDown (n : Nat) (p : Position) : Position := ⟨p.line + n, p.column⟩

theorem next_moveDown (n : Nat) (p : Position) (c : Char) :
    (p.moveDown n).next c = (p.next c).moveDown n := by
  unfold next
  split
  · rw [moveDown, moveDown, Nat.add_right_comm]
  · rfl

theorem after_moveDown (n : Nat) (p : Position) (cs : List Char) :
    (p.moveDown n).after cs = (p.after cs).moveDown n := by
  induction cs generalizing p with
  | nil => rfl
  | cons c cs ih => rw [after_cons, after_cons, next_moveDown, ih]

theorem line_after (p : Position) (cs : List Char) :
    (p.after cs).line = p.line + cs.count '\n' := by
  induction cs generalizing p with
  | nil => rfl
  | cons c cs ih =>
      rw [after_cons, ih, next]
      by_cases hc : c = '\n'
      · simp [hc]
        omega
      · simp [hc]

/-- Behind a text and a line feed, a line begins. -/
theorem start_after_line (cs : List Char) :
    start.after (cs ++ ['\n']) = start.moveDown (cs.count '\n' + 1) := by
  have hline := line_after start cs
  rw [after_append, after_cons, after_nil, next, if_pos rfl, hline]
  simp only [start, moveDown]
  rw [Nat.add_assoc]

end Position

/-- The token `n` lines below. -/
def LocatedToken.moveDown (n : Nat) (t : LocatedToken) : LocatedToken :=
  ⟨t.token, t.position.moveDown n⟩

/-- The error `n` lines below; one without a place is the same there. -/
def SyntaxError.moveDown (n : Nat) (e : SyntaxError) : SyntaxError :=
  { e with position? := e.position?.map (·.moveDown n) }

theorem LocatedToken.map_token_moveDown (n : Nat) (ts : List LocatedToken) :
    (ts.map (·.moveDown n)).map LocatedToken.token = ts.map LocatedToken.token := by
  rw [List.map_map]
  rfl

/-! ### The end of a line -/

namespace Lexeme

/-- Only a text operand can hold a line feed. -/
theorem exists_eq_string_of_mem {l : Lexeme} (hv : l.Valid) (h : '\n' ∈ l.spelling) :
    ∃ contents, l = string contents := by
  cases l with
  | keyword k => cases k <;> exact absurd h (by decide)
  | cell row col =>
      have hrow : '\n' ∉ row := fun hm => absurd (hv.1.2 _ hm) (by decide)
      have hcol : '\n' ∉ col := fun hm => absurd (hv.2.2 _ hm) (by decide)
      simp [spelling, hrow, hcol] at h
  | assign => exact absurd h (by decide)
  | comparator c => cases c <;> exact absurd h (by decide)
  | comma => exact absurd h (by decide)
  | string contents => exact ⟨contents, rfl⟩
  | integer digits => exact absurd (hv.2 _ h) (by decide)
  | identifier name => exact absurd (hv.isWordChar _ h) (by decide)

/-- What starts with a quote is a text operand. -/
theorem exists_eq_string_of_front? {cs rest : List Char} {l : Lexeme}
    (h : front? ('"' :: cs) = some (l, rest)) : ∃ contents, l = string contents := by
  obtain ⟨⟨contents, _⟩, -, e⟩ := Option.map_eq_some_iff.1 (show stringFront? cs = _ from h)
  cases e
  exact ⟨contents, rfl⟩

/-- A lexeme at the front of a text that goes on in the next line is there without the next line, or
it is a text operand that holds the line feed. -/
theorem prefix_append_line_cases {l : Lexeme} {cs ds : List Char} (hv : l.Valid)
    (h : l.spelling <+: cs ++ '\n' :: ds) :
    l.spelling <+: cs ∨
      ∃ contents more, l = string contents ∧ l.spelling = cs ++ '\n' :: more := by
  rcases List.prefix_or_prefix_of_prefix h (List.prefix_append _ _) with hle | ⟨more, hmore⟩
  · exact .inl hle
  cases more with
  | nil => exact .inl (by simp [← hmore])
  | cons c more =>
      rw [← hmore, List.prefix_append_right_inj] at h
      obtain ⟨rfl, -⟩ := List.cons_prefix_cons.1 h
      obtain ⟨contents, rfl⟩ := exists_eq_string_of_mem hv (by simp [← hmore])
      exact .inr ⟨contents, more, rfl, hmore.symm⟩

/-- **A line feed ends every lexeme.** A longer one in the text that goes on would have to hold the
line feed between quotes, and then the lexeme that is there is a text operand as well. -/
theorem Longest.append_line {l : Lexeme} {cs : List Char} (h : l.Longest (l.spelling ++ cs))
    (ds : List Char) : l.Longest (l.spelling ++ (cs ++ '\n' :: ds)) where
  valid := h.valid
  front := List.prefix_append _ _
  proper := h.proper
  longest l' hv hp := by
    rw [← List.append_assoc] at hp
    rcases prefix_append_line_cases hv hp with hle | ⟨contents', more, rfl, hmore⟩
    · exact h.longest l' hv hle
    have hf := front?_eq_some_iff.2 h
    obtain ⟨d, rest, hl⟩ := List.exists_cons_of_ne_nil (spelling_ne_nil_of_front? hf)
    obtain rfl : d = '"' := by
      rw [hl] at hmore
      exact (List.cons.inj hmore).1.symm
    rw [hl, List.cons_append] at hf
    obtain ⟨contents, rfl⟩ := exists_eq_string_of_front? hf
    -- Both operands start with the same quote, so they end with the same one.
    have hwhole := front?_string hv []
    rw [List.append_nil, hmore, List.append_assoc, front?_string h.valid] at hwhole
    simp at hwhole

end Lexeme

/-! ### Tokens of a text below another -/

namespace Source

/-- A comment does not reach into the next line. -/
theorem copyOutsideComment_append_line (inside : Bool) (cs ds : List Char) :
    copyOutsideComment inside (cs ++ '\n' :: ds) =
      copyOutsideComment inside cs ++ '\n' :: copyOutsideComment false ds := by
  induction cs generalizing inside with
  | nil => rfl
  | cons c cs ih =>
      simp only [List.cons_append, copyOutsideComment, ih]
      split
      · rfl
      · split <;> rfl

theorem toList_append_line (a b : String) :
    (a ++ "\n" ++ b).toList = a.toList ++ '\n' :: b.toList := by
  simp

theorem codeOf_append_line (cs ds : List Char) :
    codeOf (cs ++ '\n' :: ds) = codeOf cs ++ '\n' :: codeOf ds := by
  simp only [← withoutComments_eq]
  exact copyOutsideComment_append_line false cs ds

theorem count_copyOutsideComment (inside : Bool) (cs : List Char) :
    (copyOutsideComment inside cs).count '\n' = cs.count '\n' := by
  induction cs generalizing inside with
  | nil => rfl
  | cons c cs ih =>
      rw [copyOutsideComment]
      by_cases hc : c = '\n'
      · simp [hc, ih]
      · split
        · simp [hc, ih]
        · split <;> simp [hc, ih]

theorem Reads.append_line {p q : Position} {cs rest : List Char} {ts : List LocatedToken}
    (h : Reads p cs ts q rest) (ds : List Char) :
    Reads p (cs ++ '\n' :: ds) ts q (rest ++ '\n' :: ds) := by
  induction h with
  | nil p cs => exact .nil p _
  | cons hb hl ht _ ih =>
      rw [List.append_assoc, List.append_assoc]
      exact .cons hb (hl.append_line ds) ht ih

theorem Reads.after_eq {p q : Position} {cs rest : List Char} {ts : List LocatedToken}
    (h : Reads p cs ts q rest) : p.after cs = q.after rest := by
  induction h with
  | nil p cs => rfl
  | cons hb hl ht _ ih => rw [← ih, ← List.append_assoc, Position.after_append]

/-- What reading gives, `n` lines below. -/
def moveDown (n : Nat) :
    Except SyntaxError (List LocatedToken) → Except SyntaxError (List LocatedToken)
  | .ok ts => .ok (ts.map (·.moveDown n))
  | .error e => .error (e.moveDown n)

/-- **Where a text stands** decides about places and about nothing else. -/
theorem tokensFrom_moveDown (n : Nat) (p : Position) (cs : List Char) :
    tokensFrom (p.moveDown n) cs = moveDown n (tokensFrom p cs) := by
  fun_induction tokensFrom p cs with
  | case1 p =>
      rw [tokensFrom_nil]
      rfl
  | case2 p c cs hc ih => rw [tokensFrom_of_isSpace hc, Position.next_moveDown, ih]
  | case3 p c cs hc hf =>
      rw [tokensFrom_of_front?_eq_none (Bool.eq_false_iff.2 hc) hf]
      rfl
  | case4 p c cs hc l rest hf ht =>
      rw [tokensFrom_of_token?_eq_none (Bool.eq_false_iff.2 hc) hf ht]
      rfl
  | case5 p c cs hc l rest hf t ht ih =>
      rw [tokensFrom_of_token? (Bool.eq_false_iff.2 hc) hf ht, Position.after_moveDown, ih]
      cases tokensFrom (p.after l.spelling) rest <;> rfl

/-- The tokens of a text, if all of it is made of tokens, stand in front of those of the text
below. -/
theorem tokens_append_line {a : String} {ts : List LocatedToken} (h : tokens a = .ok ts)
    (b : String) :
    tokens (a ++ "\n" ++ b) =
      (moveDown (a.toList.count '\n' + 1) (tokens b)).map (ts ++ ·) := by
  obtain ⟨q, blank, hr, hb⟩ := readsAll_of_tokens h
  have hline : IsBlank (blank ++ ['\n']) := by
    intro c hc
    rcases List.mem_append.1 hc with hc | hc
    · exact hb c hc
    · rw [List.mem_singleton.1 hc]
      rfl
  -- Reading the text below starts at the beginning of a line.
  have hq : q.after (blank ++ ['\n']) = Position.start.moveDown (a.toList.count '\n' + 1) := by
    rw [Position.after_append, ← hr.after_eq, ← Position.after_append, Position.start_after_line,
      ← withoutComments_eq, withoutComments, count_copyOutsideComment]
  have hrest : tokensFrom q (blank ++ '\n' :: codeOf b.toList) =
      moveDown (a.toList.count '\n' + 1) (tokens b) := by
    rw [List.append_cons, tokensFrom_of_isBlank _ hline, hq, tokensFrom_moveDown, tokens,
      withoutComments_eq]
  rw [tokens, withoutComments_eq, toList_append_line, codeOf_append_line,
    (hr.append_line _).tokensFrom, hrest]

end Source

/-! ### Definitions behind a script -/

theorem InTurn.exists_of_append {α : Type} {Spells : α → List Token → Prop} {as bs : List α}
    {ts : List Token} (h : InTurn Spells (as ++ bs) ts) :
    ∃ us vs, ts = us ++ vs ∧ InTurn Spells as us ∧ InTurn Spells bs vs := by
  induction as generalizing ts with
  | nil => exact ⟨[], ts, rfl, .nil, h⟩
  | cons a as ih =>
      cases h with
      | @cons _ _ us vs ha hrest =>
          obtain ⟨us', vs', rfl, has, hbs⟩ := ih hrest
          exact ⟨us ++ us', vs', (List.append_assoc us us' vs').symm, .cons ha has, hbs⟩

namespace Reader

theorem eq_between_of_finish {r : Reader} {s : Script} (h : r.finish = .ok s) : r = between s := by
  cases r with
  | between script =>
      cases h
      rfl
  | opened => cases h
  | inside => cases h

/-- **A definition of a taken name** is refused at the place of the name, its second token. -/
theorem feedAll_taken {script : Script} {p : Program} {ts : List LocatedToken}
    (h : p.Spelled (ts.map LocatedToken.token)) (taken : p.name ∈ script.names) :
    ∃ t, ts[1]? = some t ∧ (between script).feedAll ts =
      .error ⟨.duplicateProgram p.name, some p.name, some t.position⟩ := by
  generalize hts : ts.map LocatedToken.token = toks at h
  cases h with
  | @intro name body us hb =>
      obtain ⟨_, ts₃, rfl, h₁₂, h₃⟩ := List.map_eq_append_iff.1 hts
      obtain ⟨ts₁, ts₂, rfl, h₁, h₂⟩ := List.map_eq_append_iff.1 h₁₂
      simp only [List.map_eq_cons_iff, List.map_eq_nil_iff] at h₁ h₃
      obtain ⟨t₁, _, rfl, h₁, t₂, _, rfl, h₂', rfl⟩ := h₁
      obtain ⟨t₃, _, rfl, h₃, rfl⟩ := h₃
      have hbody := @feedAll_body script name t₂.position #[] _ ts₂ (h₂ ▸ hb)
      have hq := (@Script.insert_eq_error_iff script ⟨name, body⟩ _).2 ⟨rfl, taken⟩
      refine ⟨t₂, rfl, ?_⟩
      simp [feedAll_append, feed, h₁, h₂', h₃, hbody, Expected.take, hq, Except.bind]

end Reader

namespace Script

theorem feedAll_of_ofTokens {s : Script} {ts : List LocatedToken} (h : ofTokens ts = .ok s) :
    Reader.start.feedAll ts = .ok (.between s) := by
  cases hr : Reader.start.feedAll ts with
  | error e =>
      rw [ofTokens, hr] at h
      cases h
  | ok r =>
      rw [ofTokens, hr] at h
      rw [Reader.eq_between_of_finish h]

theorem exists_tokens_of_read {source : String} {s : Script} (h : read source = .ok s) :
    ∃ ts, Source.tokens source = .ok ts ∧ ofTokens ts = .ok s := by
  cases hts : Source.tokens source with
  | error e =>
      rw [read, hts] at h
      cases h
  | ok ts =>
      rw [read, hts] at h
      exact ⟨ts, rfl, h⟩

/-- The tokens of a script split in front of the definition of any of its programs, and behind
it. -/
theorem Spelled.exists_definition {s : Script} {ts : List LocatedToken} {p : Program}
    {earlier later : List Program} (h : s.Spelled (ts.map LocatedToken.token))
    (hp : s.programs.toList = earlier ++ p :: later) :
    ∃ before definition after, ts = before ++ definition ++ after ∧
      InTurn Program.Spelled earlier (before.map LocatedToken.token) ∧
      p.Spelled (definition.map LocatedToken.token) := by
  rw [Spelled, hp] at h
  obtain ⟨_, _, hts, hbefore, hrest⟩ := h.exists_of_append
  obtain ⟨before, rest, rfl, rfl, hrest'⟩ := List.map_eq_append_iff.1 hts
  cases hrest with
  | cons hdefinition _ =>
      obtain ⟨definition, after, rfl, rfl, -⟩ := List.map_eq_append_iff.1 hrest'
      exact ⟨before, definition, after, (List.append_assoc _ _ _).symm, hbefore, hdefinition⟩

/-- Among the tokens of a script, `t` is the name in the definition of the program of that name:
the second token of the definition, which stands behind those of the programs before. -/
def NameToken (s : Script) (ts : List LocatedToken) (name : String) (t : LocatedToken) : Prop :=
  ∃ earlier body later before definition after,
    s.programs.toList = earlier ++ ⟨name, body⟩ :: later ∧ ts = before ++ definition ++ after ∧
      InTurn Program.Spelled earlier (before.map LocatedToken.token) ∧
      Program.Spelled ⟨name, body⟩ (definition.map LocatedToken.token) ∧ definition[1]? = some t

/-- Definitions of other names are read behind a script. -/
theorem exists_ofTokens_append {s t : Script} {ts us : List LocatedToken} (hs : ofTokens ts = .ok s)
    (ht : t.Spelled (us.map LocatedToken.token)) (hdisjoint : ∀ name ∈ s.names, name ∉ t.names) :
    ∃ whole, ofTokens (ts ++ us) = .ok whole ∧ whole.programs = s.programs ++ t.programs := by
  have hnodup : (s.names ++ t.programs.toList.map Program.name).Nodup := by
    refine List.nodup_append.2 ⟨s.nodup, t.nodup, ?_⟩
    rintro name hname _ hname' rfl
    exact hdisjoint name hname hname'
  obtain ⟨whole, hfeed, hall⟩ := Reader.exists_feedAll_programs ht hnodup
  refine ⟨whole, ?_, Array.toList_inj.1 (by simpa using hall)⟩
  rw [ofTokens_append_of_feedAll (feedAll_of_ofTokens hs), hfeed]
  rfl

/-- Of the definitions behind a script, the first of a taken name is refused. -/
theorem exists_ofTokens_append_taken {s t : Script} {ts us : List LocatedToken} {name : String}
    (n : Nat) (hs : ofTokens ts = .ok s) (ht : t.Spelled (us.map LocatedToken.token))
    (hname : t.names.find? (· ∈ s.names) = some name) :
    ∃ token, t.NameToken us name token ∧
      ofTokens (ts ++ us.map (·.moveDown n)) =
        .error ⟨.duplicateProgram name, some name, some (token.position.moveDown n)⟩ := by
  obtain ⟨htaken, _, _, hnames, hfree⟩ := List.find?_eq_some_iff_append.1 hname
  obtain ⟨earlier, _, hprograms, rfl, hlater⟩ := List.map_eq_append_iff.1 hnames
  obtain ⟨⟨first, body⟩, later, rfl, rfl, -⟩ := List.map_eq_cons_iff.1 hlater
  obtain ⟨before, definition, after, rfl, hbefore, hdefinition⟩ := ht.exists_definition hprograms
  have hnodup : (s.names ++ earlier.map Program.name).Nodup := by
    have hearlier : (earlier.map Program.name).Nodup := by
      have h := t.nodup
      rw [hprograms, List.map_append] at h
      exact (List.nodup_append.1 h).1
    refine List.nodup_append.2 ⟨s.nodup, hearlier, ?_⟩
    rintro name hmem _ hmem' rfl
    simpa [hmem] using hfree name hmem'
  -- The definitions before it are read where they stand now, and so is its own.
  have hbefore' := hbefore
  have hdefinition' := hdefinition
  rw [← LocatedToken.map_token_moveDown n] at hbefore' hdefinition'
  obtain ⟨middle, hmiddle, hall⟩ := Reader.exists_feedAll_programs hbefore' hnodup
  have htaken' : first ∈ middle.names := by
    rw [names, hall, List.map_append]
    exact List.mem_append_left _ (of_decide_eq_true htaken)
  obtain ⟨_, hsecond, hrefused⟩ := Reader.feedAll_taken hdefinition' htaken'
  rw [List.getElem?_map, Option.map_eq_some_iff] at hsecond
  obtain ⟨token, hsecond, rfl⟩ := hsecond
  refine ⟨token, ⟨earlier, body, later, before, definition, after, hprograms, rfl, hbefore,
    hdefinition, hsecond⟩, ?_⟩
  rw [ofTokens_append_of_feedAll (feedAll_of_ofTokens hs), List.map_append, List.map_append,
    Reader.feedAll_append, Reader.feedAll_append, hmiddle]
  simp only [Except.bind, hrefused]
  rfl

end Script

/-- **Reading is compositional over lines.** Let all of `a` be made of tokens. Below it, the tokens
of `b` and its error are those that `b` has on its own, so many lines further down. If both define
scripts, the whole defines the programs of the first and then those of the second, or it repeats the
first name of the second script that the first one defines, and is refused there. -/
theorem read_append_line (a b : String) {ts : List LocatedToken} (h : Source.tokens a = .ok ts) :
    (Source.tokens (a ++ "\n" ++ b) =
      match Source.tokens b with
      | .ok us => .ok (ts ++ us.map (·.moveDown (a.toList.count '\n' + 1)))
      | .error e => .error (e.moveDown (a.toList.count '\n' + 1))) ∧
    ∀ s t, Script.read a = .ok s → Script.read b = .ok t →
      ((∀ name ∈ s.names, name ∉ t.names) →
        ∃ whole, Script.read (a ++ "\n" ++ b) = .ok whole ∧
          whole.programs = s.programs ++ t.programs) ∧
      ∀ name, t.names.find? (· ∈ s.names) = some name →
        ∃ us token, Source.tokens b = .ok us ∧ t.NameToken us name token ∧
          Script.read (a ++ "\n" ++ b) =
            .error ⟨.duplicateProgram name, some name,
              some (token.position.moveDown (a.toList.count '\n' + 1))⟩ := by
  have htokens := Source.tokens_append_line h b
  refine ⟨?_, fun s t hs ht => ?_⟩
  · rw [htokens]
    cases Source.tokens b <;> rfl
  obtain ⟨us, hus, ht⟩ := Script.exists_tokens_of_read ht
  obtain ⟨_, hts, hs⟩ := Script.exists_tokens_of_read hs
  obtain rfl := Except.ok.inj (h.symm.trans hts)
  have hread : Script.read (a ++ "\n" ++ b) =
      Script.ofTokens (ts ++ us.map (·.moveDown (a.toList.count '\n' + 1))) := by
    rw [Script.read, htokens, hus]
    rfl
  have hspelled := Script.spelled_of_ofTokens ht
  rw [hread]
  refine ⟨fun hdisjoint => ?_, fun name hname => ?_⟩
  · rw [← LocatedToken.map_token_moveDown (a.toList.count '\n' + 1)] at hspelled
    exact Script.exists_ofTokens_append hs hspelled hdisjoint
  · obtain ⟨token, htoken, herror⟩ := Script.exists_ofTokens_append_taken _ hs hspelled hname
    exact ⟨us, token, hus, htoken, herror⟩

/-- A definition of `p` above one of `q` and another one of `p`. The first text ends in a comment
with a quote in it. -/
theorem read_append_line_repeated :
    let a := "program p\nprogram-end ; \""
    let b := "program q program-end\n  program p call q program-end"
    ∃ s t, Script.read a = .ok s ∧ Script.read b = .ok t ∧
      t.names.find? (· ∈ s.names) = some "p" ∧
      ∃ us token, Source.tokens b = .ok us ∧ t.NameToken us "p" token ∧
        Script.read (a ++ "\n" ++ b) =
          .error ⟨.duplicateProgram "p", some "p", some (token.position.moveDown 2)⟩ := by
  intro a b
  have hread : ∀ source names, (Script.read source).map Script.names = .ok names →
      ∃ s, Script.read source = .ok s ∧ s.names = names := by
    intro source names h
    cases hs : Script.read source with
    | error e =>
        rw [hs] at h
        cases h
    | ok s =>
        rw [hs] at h
        exact ⟨s, rfl, Except.ok.inj h⟩
  obtain ⟨s, hs, hnames⟩ := hread a ["p"] (by decide +kernel)
  obtain ⟨t, ht, hnames'⟩ := hread b ["q", "p"] (by decide +kernel)
  obtain ⟨ts, hts, -⟩ := Script.exists_tokens_of_read hs
  have hfind : t.names.find? (· ∈ s.names) = some "p" := by
    rw [hnames, hnames']
    rfl
  have hlines : a.toList.count '\n' + 1 = 2 := by decide
  have hjoined := ((read_append_line a b hts).2 s t hs ht).2 "p" hfind
  rw [hlines] at hjoined
  exact ⟨s, t, hs, ht, hfind, hjoined⟩

end GridLang
