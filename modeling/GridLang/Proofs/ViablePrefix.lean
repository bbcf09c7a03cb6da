import Mathlib.Data.Finset.Dedup
import Mathlib.Data.Fintype.EquivFin
import GridLang.Proofs.Grammar

/-!
# GridLang.Proofs.ViablePrefix

**The reader fails at the first token that cannot be mended.** An error with a place is reported as
soon as no continuation could be read, whatever follows; an error without a place means that the
tokens so far can still be continued to a script. The one exception is a name that is taken: it is
noticed when its definition is complete.

* Tokens are split behind the last definition that is complete (`LastRead`). What a reader knows of
  the definition behind it is told by `Reader.Begun`, which every token keeps (`Begun.feed`).
* A token is refused for one of two reasons (`feed_eq_error`): it does not fit, or it completes the
  definition of a name that is taken.
* Where the tokens stop, `Expected.completion` mends the instruction at hand and `program-end` the
  definition, unless its name is taken.
-/

namespace GridLang

/-! ### The first token that is refused -/

namespace Reader

/-- Tokens up to one that is refused decide what becomes of the whole. -/
theorem feedAll_of_feed_eq_error {r q : Reader} {ts : List LocatedToken} {t : LocatedToken}
    {e : SyntaxError} (hts : r.feedAll ts = .ok q) (ht : q.feed t = .error e)
    (us : List LocatedToken) : r.feedAll (ts ++ t :: us) = .error e := by
  simp [feedAll_append, hts, ht, Except.bind]

theorem exists_feed_eq_error {r : Reader} {ts : List LocatedToken} {e : SyntaxError}
    (h : r.feedAll ts = .error e) :
    ∃ pre t post q, ts = pre ++ t :: post ∧ r.feedAll pre = .ok q ∧ q.feed t = .error e := by
  induction ts generalizing r with
  | nil => cases h
  | cons t ts ih =>
      rw [feedAll_cons] at h
      cases hf : r.feed t with
      | error e' =>
          rw [hf] at h
          cases h
          exact ⟨[], t, ts, r, rfl, rfl, hf⟩
      | ok q =>
          rw [hf] at h
          obtain ⟨pre, u, post, q', rfl, hpre, hu⟩ := ih h
          refine ⟨t :: pre, u, post, q', rfl, ?_, hu⟩
          rw [feedAll_cons, hf]
          exact hpre

end Reader

theorem Script.ofTokens_append_of_feedAll {r : Reader} {ts : List LocatedToken}
    (h : Reader.start.feedAll ts = .ok r) (us : List LocatedToken) :
    ofTokens (ts ++ us) = (r.feedAll us).bind Reader.finish := by
  simp [ofTokens, Reader.feedAll_append, h, Except.bind]

theorem Script.ofTokens_of_feedAll {r : Reader} {ts : List LocatedToken}
    (h : Reader.start.feedAll ts = .ok r) : ofTokens ts = r.finish := by
  rw [ofTokens, h]
  rfl

theorem Script.ofTokens_of_feed_eq_error {r : Reader} {ts : List LocatedToken} {t : LocatedToken}
    {e : SyntaxError} (hts : Reader.start.feedAll ts = .ok r) (ht : r.feed t = .error e)
    (us : List LocatedToken) : ofTokens (ts ++ t :: us) = .error e := by
  rw [ofTokens, Reader.feedAll_of_feed_eq_error hts ht us]
  rfl

/-! ### Why a token is refused -/

/-- A token that does not fit is what the error shows. -/
theorem Expected.take_eq_error {expected : Expected} {t : Token} {cause : SyntaxError.Cause}
    (h : expected.take t = .error cause) :
    cause.lexeme? = some t.text ∧ ∀ name, cause ≠ .duplicateProgram name := by
  cases expected with
  | _ =>
      dsimp only [take] at h
      split at h <;> cases h
      all_goals exact ⟨rfl, by simp⟩

namespace Reader

/-- A token is refused at its place, since it does not fit, or at the place of a name, since it
completes the definition of a name that is taken. -/
theorem feed_eq_error {r : Reader} {t : LocatedToken} {e : SyntaxError} (h : r.feed t = .error e) :
    (e.position? = some t.position ∧ (∀ text, e.cause.lexeme? = some text → text = t.token.text) ∧
      ∀ name, e.cause ≠ .duplicateProgram name) ∨
    ∃ script draft, r = .inside script draft ∧ draft.expected = .instruction ∧
      t.token = .keyword .programEnd ∧ draft.name ∈ script.names ∧
      e = ⟨.duplicateProgram draft.name, some draft.name, some draft.position⟩ := by
  cases r with
  | between script =>
      dsimp only [feed] at h
      split at h <;> cases h
      exact .inl ⟨rfl, by simp [SyntaxError.Cause.lexeme?], by simp⟩
  | opened script =>
      dsimp only [feed] at h
      split at h <;> cases h
      · exact .inl ⟨rfl, by simp [SyntaxError.Cause.lexeme?], by simp⟩
      · exact .inl ⟨rfl, by simp [SyntaxError.Cause.lexeme?], by simp⟩
  | inside script draft =>
      dsimp only [feed] at h
      split at h
      next cause hc =>
        cases h
        obtain ⟨hlexeme, hne⟩ := Expected.take_eq_error hc
        refine .inl ⟨rfl, ?_, hne⟩
        intro text htext
        exact Option.some.inj (htext.symm.trans hlexeme)
      · cases h
      · cases h
      next hend =>
        obtain ⟨hexp, htok⟩ := Expected.eq_of_take_eq_programEnd hend
        split at h
        · cases h
        next q hins =>
          cases h
          have htaken : draft.name ∈ script.names := (Script.insert_eq_error_iff.1 hins).2
          exact .inr ⟨script, draft, rfl, hexp, htok, htaken, rfl⟩

theorem position?_of_finish {r : Reader} {e : SyntaxError} (h : r.finish = .error e) :
    e.position? = none := by
  cases r <;> cases h <;> rfl

/-- A repeated definition is not noticed where the tokens stop. -/
theorem cause_ne_of_finish {r : Reader} {e : SyntaxError} (h : r.finish = .error e)
    (name : String) : e.cause ≠ .duplicateProgram name := by
  cases r with
  | between => cases h
  | opened => cases h; simp
  | inside script draft =>
      cases h
      cases draft.expected <;> simp [Expected.missing]

/-! ### The definition that is being read -/

/-- The tokens of the definition that a reader is in, behind a complete script. -/
inductive Begun : Reader → Script → List LocatedToken → Prop
  | between (script : Script) : Begun (.between script) script []
  | opened (script : Script) {t : LocatedToken} : t.token = .keyword .program →
      Begun (.opened script) script [t]
  | inside (script : Script) {draft : Draft} {t : LocatedToken} {ts : List LocatedToken}
      {us vs : List Token} : t.token = .keyword .program →
      InTurn Instruction.Spelled draft.body.toList us → draft.expected.Consumed vs →
      ts.map LocatedToken.token = us ++ vs →
      Begun (.inside script draft) script
        (t :: ⟨.identifier draft.name, draft.position⟩ :: ts)

theorem Begun.eq_nil_of_finish {r : Reader} {script s : Script} {begun : List LocatedToken}
    (h : r.Begun script begun) (hf : r.finish = .ok s) : begun = [] := by
  cases h with
  | between => rfl
  | opened => cases hf
  | inside => cases hf

/-- **One token** of a definition, or its last one. -/
theorem Begun.feed {r q : Reader} {script : Script} {begun : List LocatedToken} {t : LocatedToken}
    (h : r.Begun script begun) (ht : r.feed t = .ok q) :
    q.Begun script (begun ++ [t]) ∨ ∃ whole, q = .between whole := by
  cases h with
  | between =>
      dsimp only [Reader.feed] at ht
      split at ht <;> cases ht
      next htok => exact .inl (.opened script htok)
  | @opened _ t₀ h₀ =>
      dsimp only [Reader.feed] at ht
      split at ht <;> cases ht
      next name htok =>
        obtain ⟨token, position⟩ := t
        obtain rfl : token = .identifier name := htok
        exact .inl (@Begun.inside script ⟨name, position, #[], .instruction⟩ t₀ [] [] [] h₀ .nil
          .instruction rfl)
  | @inside _ draft t₀ ts us vs h₀ hb he hts =>
      dsimp only [Reader.feed] at ht
      split at ht
      · cases ht
      next expected hg =>
        cases ht
        refine .inl (.inside script h₀ hb (he.goOn hg) ?_)
        simp [hts]
      next i hi =>
        cases ht
        refine .inl (@Begun.inside script
          { draft with body := draft.body.push i, expected := .instruction } t₀ (ts ++ [t]) _ []
          h₀ (hb.push (he.complete hi)) .instruction ?_)
        simp [hts]
      next hend =>
        split at ht <;> cases ht
        exact .inr ⟨_, rfl⟩

end Reader

/-- Tokens, split behind the last definition that is complete: `before` is the longest part from
the start on that is read as a script, and `begun` is the rest. -/
structure LastRead (ts before begun : List LocatedToken) (script : Script) : Prop where
  eq_append : ts = before ++ begun
  read : Script.ofTokens before = .ok script
  longest : ∀ us, us <+: ts → (∃ s, Script.ofTokens us = .ok s) → us.length ≤ before.length

/-- The name of a definition, once it has one. -/
def acceptedName? : List Token → Option String
  | .keyword .program :: .identifier name :: _ => some name
  | _ => none

theorem acceptedName?_of_ne_program {t : Token} (h : t ≠ .keyword .program) (us : List Token) :
    acceptedName? (t :: us) = none := by
  unfold acceptedName?
  split
  next heq => exact absurd (List.cons.inj heq).1 h
  · rfl

theorem acceptedName?_of_ne_identifier {t : Token} (h : ∀ name, t ≠ .identifier name)
    (us : List Token) : acceptedName? (.keyword .program :: t :: us) = none := by
  unfold acceptedName?
  split
  next heq => exact absurd (List.cons.inj (List.cons.inj heq).2).1 (h _)
  · rfl

namespace LastRead

theorem whole {ts : List LocatedToken} {script : Script} (h : Script.ofTokens ts = .ok script) :
    LastRead ts ts [] script :=
  ⟨(List.append_nil ts).symm, h, fun _ hus _ => hus.length_le⟩

theorem concat {ts before begun : List LocatedToken} {script : Script} {t : LocatedToken}
    (h : LastRead ts before begun script) (ht : ∀ s, Script.ofTokens (ts ++ [t]) ≠ .ok s) :
    LastRead (ts ++ [t]) before (begun ++ [t]) script := by
  refine ⟨by rw [h.eq_append, List.append_assoc], h.read, ?_⟩
  intro us hus hs
  rcases List.prefix_concat_iff.1 hus with rfl | hus
  · obtain ⟨s, hs⟩ := hs
    exact absurd hs (ht s)
  · exact h.longest us hus hs

theorem append_of_error {ts before begun : List LocatedToken} {script : Script} {t : LocatedToken}
    {e : SyntaxError} (h : LastRead ts before begun script)
    (ht : ∀ us, Script.ofTokens (ts ++ t :: us) = .error e) (us : List LocatedToken) :
    LastRead (ts ++ t :: us) before (begun ++ t :: us) script := by
  refine ⟨by rw [h.eq_append, List.append_assoc], h.read, ?_⟩
  intro vs hvs hs
  -- A part from the start on ends before the token that is refused, or it is refused as well.
  rcases List.prefix_or_prefix_of_prefix hvs (List.prefix_append ts (t :: us)) with hle | ⟨ws, rfl⟩
  · exact h.longest vs hle hs
  · rw [List.prefix_append_right_inj] at hvs
    cases ws with
    | nil => exact h.longest _ (by simp) hs
    | cons w ws =>
        obtain ⟨rfl, -⟩ := List.cons_prefix_cons.1 hvs
        obtain ⟨s, hs⟩ := hs
        rw [ht ws] at hs
        cases hs

end LastRead

/-- **All tokens that are taken** split behind the last complete definition. -/
theorem Reader.exists_begun {r : Reader} {ts : List LocatedToken} (h : start.feedAll ts = .ok r) :
    ∃ before begun script, LastRead ts before begun script ∧ r.Begun script begun := by
  -- From the right: the last token goes on with what has been begun, or it completes it.
  induction ts using List.reverseRecOn generalizing r with
  | nil =>
      cases h
      exact ⟨[], [], ∅, .whole rfl, .between ∅⟩
  | append_singleton ts t ih =>
      rw [feedAll_append] at h
      cases hq : start.feedAll ts with
      | error e =>
          rw [hq] at h
          cases h
      | ok q =>
          rw [hq] at h
          have ht : q.feed t = .ok r := by
            cases hf : q.feed t <;> simp [Except.bind, hf] at h ⊢
            exact h
          have hfinish : Script.ofTokens (ts ++ [t]) = r.finish := by
            rw [Script.ofTokens_append_of_feedAll hq, feedAll_cons, ht]
            rfl
          obtain ⟨before, begun, script, hsplit, hbegun⟩ := ih hq
          rcases hbegun.feed ht with hnext | ⟨whole, rfl⟩
          · refine ⟨before, begun ++ [t], script, hsplit.concat fun s hs => ?_, hnext⟩
            rw [hfinish] at hs
            simpa using hnext.eq_nil_of_finish hs
          · exact ⟨ts ++ [t], [], whole, .whole hfinish, .between whole⟩

/-! ### The name of the definition -/

namespace Reader

theorem Begun.program?_of_finish {r : Reader} {script : Script} {begun : List LocatedToken}
    {e : SyntaxError} (h : r.Begun script begun) (he : r.finish = .error e) :
    e.program? = acceptedName? (begun.map LocatedToken.token) := by
  cases h with
  | between => cases he
  | opened script ht =>
      cases he
      simp [acceptedName?]
  | inside script ht =>
      cases he
      simp [acceptedName?, ht]

theorem Begun.program?_of_feed {r : Reader} {script : Script} {begun : List LocatedToken}
    {t : LocatedToken} {e : SyntaxError} (h : r.Begun script begun) (he : r.feed t = .error e)
    (us : List LocatedToken) :
    e.program? = acceptedName? ((begun ++ t :: us).map LocatedToken.token) := by
  cases h with
  | between =>
      dsimp only [Reader.feed] at he
      split at he <;> cases he
      next hne => exact (acceptedName?_of_ne_program hne _).symm
  | opened script ht =>
      dsimp only [Reader.feed] at he
      split at he <;> cases he
      next hend => simp [acceptedName?, ht, hend]
      next hne _ =>
        simp only [List.cons_append, List.nil_append, List.map_cons, ht]
        exact (acceptedName?_of_ne_identifier hne _).symm
  | @inside _ draft _ _ _ _ ht =>
      have hname : e.program? = some draft.name := by
        dsimp only [Reader.feed] at he
        split at he
        · cases he
          rfl
        · cases he
        · cases he
        · split at he <;> cases he
          rfl
      simp [acceptedName?, ht, hname]

end Reader

/-! ### Where the tokens stop -/

/-- Tokens that complete an instruction that has been begun. -/
def Expected.completion : Expected → List Token
  | instruction => []
  | address => [.cell ⟨0, 0⟩, .assign, .integer 0]
  | assign _ => [.assign, .integer 0]
  | value _ => [.integer 0]
  | leftOperand => [.integer 0, .comparator .eq, .integer 0, .comma, .identifier "p"]
  | comparator _ => [.comparator .eq, .integer 0, .comma, .identifier "p"]
  | rightOperand _ _ => [.integer 0, .comma, .identifier "p"]
  | comma _ => [.comma, .identifier "p"]
  | target _ => [.identifier "p"]

namespace Reader

theorem exists_feedAll_completion (script : Script) (draft : Draft) :
    ∃ body, (inside script draft).feedAll
        (draft.expected.completion.map fun t => ⟨t, .start⟩) =
      .ok (inside script { draft with body, expected := .instruction }) := by
  obtain ⟨name, position, body, expected⟩ := draft
  cases expected with
  | instruction => exact ⟨body, rfl⟩
  | _ => exact ⟨_, rfl⟩

theorem exists_feedAll_of_free {script : Script} {draft : Draft} (h : draft.name ∉ script.names) :
    ∃ us whole, (inside script draft).feedAll us = .ok (between whole) := by
  obtain ⟨body, hbody⟩ := exists_feedAll_completion script draft
  obtain ⟨whole, hwhole⟩ := @Script.exists_insert_iff script ⟨draft.name, body⟩ |>.2 h
  refine ⟨draft.expected.completion.map (fun t => ⟨t, .start⟩) ++ [⟨.keyword .programEnd, .start⟩],
    whole, ?_⟩
  rw [feedAll_append, hbody]
  simp [Except.bind, feed, Expected.take, hwhole]

theorem exists_feedAll_of_taken {script : Script} {draft : Draft} (h : draft.name ∈ script.names) :
    ∃ us, (inside script draft).feedAll us =
      .error ⟨.duplicateProgram draft.name, some draft.name, some draft.position⟩ := by
  obtain ⟨body, hbody⟩ := exists_feedAll_completion script draft
  have hq := (@Script.insert_eq_error_iff script ⟨draft.name, body⟩ _).2 ⟨rfl, h⟩
  refine ⟨draft.expected.completion.map (fun t => ⟨t, .start⟩) ++ [⟨.keyword .programEnd, .start⟩],
    ?_⟩
  rw [feedAll_append, hbody]
  simp [Except.bind, feed, Expected.take, hq]

theorem exists_feedAll_opened (script : Script) :
    ∃ us whole, (opened script).feedAll us = .ok (between whole) := by
  -- A script has finitely many names, so there is one that is free.
  obtain ⟨name, hname⟩ := Infinite.exists_notMem_finset script.names.toFinset
  obtain ⟨us, whole, h⟩ := @exists_feedAll_of_free script
    ⟨name, .start, #[], .instruction⟩ (by simpa using hname)
  exact ⟨⟨.identifier name, .start⟩ :: us, whole, h⟩

end Reader

/-! ### Errors of the reader -/

/-- An error is the fault of one token: what comes before it can be mended, what comes behind it
does not matter, and the error shows the token and its place. -/
structure RefusedAt (ts : List LocatedToken) (e : SyntaxError) (pre : List LocatedToken)
    (t : LocatedToken) : Prop where
  isPrefix : pre ++ [t] <+: ts
  position : e.position? = some t.position
  lexeme : ∀ text, e.cause.lexeme? = some text → text = t.token.text
  mendable : (∃ s, Script.ofTokens pre = .ok s) ∨
    ∃ e', Script.ofTokens pre = .error e' ∧ e'.position? = none
  final : ∀ us, Script.ofTokens (pre ++ [t] ++ us) = .error e

/-- An error is the fault of a complete definition of a name, behind the tokens `before`: what comes
behind it does not matter, and the error shows the place of the name. -/
structure RepeatedBy (before begun : List LocatedToken) (e : SyntaxError) (name : String)
    (definition : List LocatedToken) : Prop where
  isPrefix : definition <+: begun
  spelled : ∃ body, Program.Spelled ⟨name, body⟩ (definition.map LocatedToken.token)
  position : ∃ t, definition[1]? = some t ∧ t.token = .identifier name ∧
    e.position? = some t.position
  final : ∀ us, Script.ofTokens (before ++ definition ++ us) = .error e

/-- The error of a token that completes the definition of a taken name. -/
theorem Reader.Begun.repeatedBy {script : Script} {draft : Draft} {t : LocatedToken}
    {ts before begun post : List LocatedToken} {e : SyntaxError}
    (h : (Reader.inside script draft).Begun script begun) (hexp : draft.expected = .instruction)
    (ht : t.token = .keyword .programEnd) (hpos : e.position? = some draft.position)
    (hts : ts = before ++ begun) (hfinal : ∀ us, Script.ofTokens (ts ++ t :: us) = .error e) :
    RepeatedBy before (begun ++ t :: post) e draft.name (begun ++ [t]) := by
  refine ⟨⟨post, by simp⟩, ?_, ?_, fun us => ?_⟩
  · cases h with
    | inside script h₀ hb he hmap =>
        rw [hexp] at he
        cases he
        refine ⟨draft.body, ?_⟩
        have hspelled := @Program.Spelled.intro draft.name draft.body _ hb
        simpa [h₀, hmap, ht] using hspelled
  · cases h with
    | inside script h₀ hb he hmap => exact ⟨_, rfl, rfl, hpos⟩
  · have hus := hfinal us
    rw [hts] at hus
    simpa using hus

/-- Tokens that stop inside a definition can be continued, to a script if its name is not taken. -/
theorem Reader.Begun.exists_continuation {r : Reader} {script : Script}
    {ts begun : List LocatedToken} {e : SyntaxError} (h : r.Begun script begun)
    (hts : start.feedAll ts = .ok r) (he : r.finish = .error e) :
    ((∀ name, e.program? = some name → name ∉ script.names) →
      ∃ us whole, Script.ofTokens (ts ++ us) = .ok whole) ∧
    ∀ name, e.program? = some name → name ∈ script.names →
      ∃ us e', Script.ofTokens (ts ++ us) = .error e' ∧ e'.cause = .duplicateProgram name := by
  cases h with
  | between => cases he
  | opened =>
      cases he
      refine ⟨?_, ?_⟩
      · intro _
        obtain ⟨us, whole, hus⟩ := exists_feedAll_opened script
        refine ⟨us, whole, ?_⟩
        rw [Script.ofTokens_append_of_feedAll hts, hus]
        rfl
      · intro name hname
        cases hname
  | @inside _ draft =>
      cases he
      refine ⟨?_, ?_⟩
      · intro hfree
        obtain ⟨us, whole, hus⟩ := exists_feedAll_of_free (hfree draft.name rfl)
        refine ⟨us, whole, ?_⟩
        rw [Script.ofTokens_append_of_feedAll hts, hus]
        rfl
      · intro name hname htaken
        cases hname
        obtain ⟨us, hus⟩ := exists_feedAll_of_taken htaken
        refine ⟨us, ⟨.duplicateProgram draft.name, some draft.name, some draft.position⟩, ?_, rfl⟩
        rw [Script.ofTokens_append_of_feedAll hts, hus]
        rfl

/-- An error stands where the tokens stop, or where one of them is refused. -/
theorem Script.ofTokens_eq_error_cases {ts : List LocatedToken} {e : SyntaxError}
    (h : ofTokens ts = .error e) :
    (∃ r, Reader.start.feedAll ts = .ok r ∧ r.finish = .error e) ∨
      ∃ pre t post r, ts = pre ++ t :: post ∧ Reader.start.feedAll pre = .ok r ∧
        r.feed t = .error e := by
  cases hr : Reader.start.feedAll ts with
  | ok r => exact .inl ⟨r, rfl, (ofTokens_of_feedAll hr).symm.trans h⟩
  | error e' =>
      rw [ofTokens, hr] at h
      cases h
      exact .inr (Reader.exists_feed_eq_error hr)

/-- **The reader fails at the first token that cannot be mended**, and its errors split into
incomplete and invalid ones. Let the tokens be split behind their last complete definition. An error
names the definition behind it, once this has a name. Without a place, the tokens can be continued
to those of a script or, if that name is taken, to a repeated definition. With a place, the error is
the fault of one token, or of a complete definition of a name that is taken. -/
theorem ofTokens_eq_error {ts : List LocatedToken} {e : SyntaxError}
    (h : Script.ofTokens ts = .error e) :
    ∃ before begun script, LastRead ts before begun script ∧
      e.program? = acceptedName? (begun.map LocatedToken.token) ∧
      (e.position? = none →
        ((∀ name, e.program? = some name → name ∉ script.names) →
          ∃ us whole, Script.ofTokens (ts ++ us) = .ok whole) ∧
        ∀ name, e.program? = some name → name ∈ script.names →
          ∃ us e', Script.ofTokens (ts ++ us) = .error e' ∧ e'.cause = .duplicateProgram name) ∧
      ((∃ position, e.position? = some position) →
        (∀ name, e.cause ≠ .duplicateProgram name) → ∃ pre t, RefusedAt ts e pre t) ∧
      ∀ name, e.cause = .duplicateProgram name →
        name ∈ script.names ∧ ∃ definition, RepeatedBy before begun e name definition := by
  rcases Script.ofTokens_eq_error_cases h with ⟨r, hr, he⟩ | ⟨pre, t, post, r, rfl, hr, he⟩
  · obtain ⟨before, begun, script, hsplit, hbegun⟩ := Reader.exists_begun hr
    have hnone := Reader.position?_of_finish he
    refine ⟨before, begun, script, hsplit, hbegun.program?_of_finish he,
      fun _ => hbegun.exists_continuation hr he, ?_, ?_⟩
    · rintro ⟨position, hpos⟩
      rw [hnone] at hpos
      cases hpos
    · intro name hname
      exact absurd hname (Reader.cause_ne_of_finish he name)
  · obtain ⟨before, begun, script, hsplit, hbegun⟩ := Reader.exists_begun hr
    have hfinal := Script.ofTokens_of_feed_eq_error hr he
    refine ⟨before, begun ++ t :: post, script, hsplit.append_of_error hfinal post,
      hbegun.program?_of_feed he post, ?_⟩
    rcases Reader.feed_eq_error he with
      ⟨hpos, hlexeme, hne⟩ | ⟨script', draft, rfl, hexp, htok, htaken, rfl⟩
    · refine ⟨fun hnone => ?_, fun _ _ => ⟨pre, t, ?_⟩, fun name hname => absurd hname (hne name)⟩
      · rw [hnone] at hpos
        cases hpos
      · refine ⟨⟨post, by simp⟩, hpos, hlexeme, ?_, fun us => by simpa using hfinal us⟩
        -- Before the token, the reader has come to a state in which the tokens can stop.
        rw [Script.ofTokens_of_feedAll hr]
        cases hfin : r.finish with
        | ok s => exact .inl ⟨s, rfl⟩
        | error e' => exact .inr ⟨e', rfl, Reader.position?_of_finish hfin⟩
    · obtain rfl : script' = script := by
        cases hbegun
        rfl
      refine ⟨?_, ?_, ?_⟩
      · intro hnone
        cases hnone
      · intro _ hne
        exact absurd rfl (hne draft.name)
      · intro name hname
        cases hname
        exact ⟨htaken, _, hbegun.repeatedBy hexp htok rfl hsplit.eq_append hfinal⟩

/-- Two empty definitions of one name, each on a line of its own. -/
theorem ofTokens_eq_error_repeated :
    let ts : List LocatedToken :=
      [⟨.keyword .program, ⟨1, 1⟩⟩, ⟨.identifier "a", ⟨1, 9⟩⟩, ⟨.keyword .programEnd, ⟨1, 11⟩⟩,
        ⟨.keyword .program, ⟨2, 1⟩⟩, ⟨.identifier "a", ⟨2, 9⟩⟩, ⟨.keyword .programEnd, ⟨2, 11⟩⟩]
    let e : SyntaxError := ⟨.duplicateProgram "a", some "a", some ⟨2, 9⟩⟩
    Script.ofTokens ts = .error e ∧
      ∃ before begun script, LastRead ts before begun script ∧ "a" ∈ script.names ∧
        ∃ definition, RepeatedBy before begun e "a" definition := by
  intro ts e
  have h : Script.ofTokens ts = .error e := by decide
  obtain ⟨before, begun, script, hsplit, -, -, -, hrepeated⟩ := ofTokens_eq_error h
  exact ⟨h, before, begun, script, hsplit, hrepeated "a" rfl⟩

end GridLang
