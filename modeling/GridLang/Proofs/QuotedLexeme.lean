import GridLang.Proofs.InvalidSource
import GridLang.Proofs.PrintedScript

/-!
# GridLang.Proofs.QuotedLexeme

**What a syntax error quotes** is the lexeme at its place, put in the plainest way. The reader of
tokens has no lexemes, only what they were decoded to, so a number is quoted without the zeros in
front of it. Everything else is quoted as it is written.

* `Numeral.toDigits_value_iff`: the digits of a number are those it was read from, unless a zero
  stands in front.
* `Lexeme.text_eq_spelling_iff`: so it is for a token and its lexeme.
* `Script.exists_token_of_ofTokens`: an error in the order of tokens quotes one of them.
-/

namespace GridLang

/-! ### Digits that are written again -/

namespace Numeral

/-- No zero stands in front of a run of digits, unless it is all of it. -/
def Plain (ds : List Char) : Prop := ds = ['0'] ∨ ds.head? ≠ some '0'

instance (ds : List Char) : Decidable (Plain ds) :=
  inferInstanceAs (Decidable (ds = ['0'] ∨ ds.head? ≠ some '0'))

theorem plain_toDigits (n : Nat) : Plain (Nat.toDigits 10 n) := by
  induction n using Nat.strongRecOn with
  | ind n ih =>
      by_cases hn : n < 10
      · rw [Nat.toDigits_of_lt_base hn]
        by_cases hzero : n = 0
        · subst hzero
          exact .inl rfl
        · refine .inr fun h => hzero ?_
          have hdigit : n.digitChar = '0' := Option.some.inj h
          have hval : 48 + n = 48 := by
            rw [← Nat.toNat_digitChar_of_lt_ten hn, hdigit]
            rfl
          omega
      · -- The first digit is that of a smaller number, which is not zero.
        have hle : 10 ≤ n := Nat.le_of_not_lt hn
        have hpos : 0 < n / 10 := Nat.div_pos hle (by decide)
        rw [Nat.toDigits_of_base_le (by decide) hle]
        refine .inr fun h => ?_
        rw [List.head?_append_of_ne_nil _ Nat.toDigits_ne_nil] at h
        rcases ih (n / 10) (Nat.div_lt_self (by omega) (by decide)) with hzero | hne
        · have hval : n / 10 = 0 := by
            rw [← Nat.ofDigitChars_ten_toDigits (n := n / 10), hzero]
            rfl
          exact absurd hval (Nat.ne_of_gt hpos)
        · exact hne h

theorem digitValue_lt {c : Char} (h : c.isDigit = true) : c.toNat - '0'.toNat < 10 := by
  have hle : c.toNat ≤ 57 := Lexeme.toNat_le_of_isDigit h
  show c.toNat - 48 < 10
  omega

theorem toDigits_of_isDigit {c : Char} (h : c.isDigit = true) :
    Nat.toDigits 10 (c.toNat - '0'.toNat) = [c] := by
  rw [Nat.toDigits_of_lt_base (digitValue_lt h)]
  congr 1
  refine Char.toNat_inj.1 ?_
  rw [Nat.toNat_digitChar_of_lt_ten (digitValue_lt h)]
  have hle : 48 ≤ c.toNat := (Char.isDigit_iff_toNat.1 h).1
  show 48 + (c.toNat - 48) = c.toNat
  omega

theorem toDigits_value_of_plain {ds : List Char} (h : Lexeme.IsDigits ds) (hplain : Plain ds) :
    Nat.toDigits 10 (value ds) = ds := by
  induction ds using List.reverseRecOn with
  | nil => exact absurd rfl h.1
  | append_singleton ds c ih =>
      have hc : c.isDigit = true := h.2 c (by simp)
      have hvalue : value (ds ++ [c]) = 10 * value ds + (c.toNat - '0'.toNat) := by
        simp [value, Nat.ofDigitChars_append, Nat.ofDigitChars_cons]
      by_cases hds : ds = []
      · subst hds
        rw [hvalue, show value [] = 0 from rfl, Nat.mul_zero, Nat.zero_add]
        exact toDigits_of_isDigit hc
      · have hhead : ds.head? ≠ some '0' := by
          rcases hplain with hzero | hne
          · exact absurd (List.append_eq_singleton_iff.1 hzero) (by simp [hds])
          · rwa [List.head?_append_of_ne_nil _ hds] at hne
        have hfront := ih ⟨hds, fun d hd => h.2 d (by simp [hd])⟩ (.inr hhead)
        have hpos : 0 < value ds := by
          refine Nat.pos_of_ne_zero fun hzero => hhead ?_
          rw [← hfront, hzero]
          rfl
        rw [hvalue, ← Nat.toDigits_append_toDigits (by decide) hpos (digitValue_lt hc), hfront,
          toDigits_of_isDigit hc]

/-- **The digits of a number** are those it was read from, unless a zero stands in front. -/
theorem toDigits_value_iff {ds : List Char} (h : Lexeme.IsDigits ds) :
    Nat.toDigits 10 (value ds) = ds ↔ Plain ds :=
  ⟨fun heq => heq ▸ plain_toDigits (value ds), toDigits_value_of_plain h⟩

end Numeral

/-! ### Tokens and their lexemes -/

namespace Lexeme

/-- No number of a lexeme has a zero in front. -/
def Plain : Lexeme → Prop
  | cell row col => Numeral.Plain row ∧ Numeral.Plain col
  | integer digits => Numeral.Plain digits
  | _ => True

/-- A comma between brackets separates two runs of digits in one way only. -/
theorem spelling_cell_inj {row col row' col' : List Char} (h : IsDigits row) (h' : IsDigits row') :
    (cell row col).spelling = (cell row' col').spelling ↔ row = row' ∧ col = col' := by
  constructor
  · intro heq
    have heq : row ++ ',' :: (col ++ [']']) = row' ++ ',' :: (col' ++ [']']) := by
      simpa [spelling] using heq
    have hcut := (Text.cut_eq_some_iff.2 ⟨heq, h'.not_mem rfl⟩).symm.trans
      (Text.cut_eq_some_iff.2 ⟨rfl, h.not_mem rfl⟩)
    simpa [eq_comm] using hcut
  · rintro ⟨rfl, rfl⟩
    rfl

/-- **A token is written like its lexeme** unless a number in it has a zero in front. -/
theorem text_eq_spelling_iff {l : Lexeme} {t : Token} (hv : l.Valid) (h : l.Decodes t) :
    t.text.toList = l.spelling ↔ l.Plain := by
  cases h with
  | @cell row col a hrow hcol =>
      have htext : (Token.cell a).text.toList =
          (cell (Nat.toDigits 10 (Numeral.value row))
            (Nat.toDigits 10 (Numeral.value col))).spelling := by
        simp [Token.text, Address.text, Numeral.ofUInt64, spelling, hrow, hcol]
      rw [htext, spelling_cell_inj (isDigits_toDigits _) hv.1, Numeral.toDigits_value_iff hv.1,
        Numeral.toDigits_value_iff hv.2, Plain]
  | @integer digits n hn =>
      have htext : (Token.integer n).text.toList = Nat.toDigits 10 (Numeral.value digits) := by
        rw [Token.text, Numeral.ofInt64, if_neg (by omega), Numeral.toList_ofNat, hn,
          Int.natAbs_natCast]
      rw [htext, spelling, Numeral.toDigits_value_iff hv, Plain]
  | string contents => simp [Token.text, spelling, Plain]
  | keyword | assign | comparator | comma => simp [Token.text, spelling, Plain]
  | identifier name => simp [Token.text, spelling, Plain]

end Lexeme

/-! ### Errors in the order of tokens -/

/-- **An error in the order of tokens** that has a place and quotes something quotes the token at
that place. -/
theorem Script.exists_token_of_ofTokens {ts : List LocatedToken} {e : SyntaxError} {p : Position}
    {found : String} (h : ofTokens ts = .error e) (hp : e.position? = some p)
    (hfound : e.cause.lexeme? = some found) :
    ∃ t ∈ ts, t.position = p ∧ t.token.text = found := by
  rcases ofTokens_eq_error_cases h with ⟨r, -, he⟩ | ⟨pre, t, post, r, rfl, hr, he⟩
  · rw [Reader.position?_of_finish he] at hp
    cases hp
  · rcases Reader.feed_eq_error he with ⟨hplace, hlexeme, -⟩ | ⟨script, draft, rfl, -, -, -, rfl⟩
    · refine ⟨t, by simp, ?_, (hlexeme found hfound).symm⟩
      rw [hplace] at hp
      exact Option.some.inj hp
    · -- The name of the draft was taken as a token of its own.
      obtain ⟨before, begun, script', hsplit, hbegun⟩ := Reader.exists_begun hr
      cases hp
      cases hfound
      cases hbegun with
      | inside =>
          exact ⟨⟨.identifier draft.name, draft.position⟩, by simp [hsplit.eq_append], rfl, rfl⟩

/-! ### What is quoted -/

/-- **What a syntax error quotes.** Let an error have a place and quote something. Then at that
place, without comments, no lexeme starts and its first character is quoted, or a lexeme is quoted.
A lexeme with a number out of range is quoted as it is written, and so is every other one in whose
numbers no zero stands in front. A lexeme in range is quoted as the text of its token. -/
theorem read_quotes {source found : String} {e : SyntaxError} {p : Position}
    (h : Script.read source = .error e) (hp : e.position? = some p)
    (hfound : e.cause.lexeme? = some found) :
    ∃ before rest, Source.codeOf source.toList = before ++ rest ∧
      p = Position.start.after before ∧
      ((∃ c, e.cause = .unrecognizedInput found ∧ found = String.singleton c ∧ [c] <+: rest ∧
          ∀ l : Lexeme, l.Valid → ¬ l.spelling <+: rest) ∨
        ∃ l : Lexeme, l.Longest rest ∧ (e.cause = .numberOutOfRange found ↔ ¬ l.InRange) ∧
          (l.InRange → ∃ t, l.Decodes t ∧ found = t.text) ∧
          (found.toList = l.spelling ↔ (l.InRange → l.Plain))) := by
  rcases Script.read_eq_error_cases h with ⟨htokens, -⟩ | ⟨ts, hts, he, hlexical⟩
  · obtain ⟨ts, q, blank, rest, cause, hr, -, hb, rfl⟩ := Source.breaksOff_of_tokens htokens
    obtain ⟨before, hcode, rfl⟩ := hr.exists_append
    cases hp
    rw [← List.append_assoc] at hcode
    refine ⟨before ++ blank, rest, hcode, (Position.after_append _ _ _).symm, ?_⟩
    cases hb with
    | @numberOutOfRange l cs hl hrange =>
        cases hfound
        exact .inr ⟨l, hl, by simp [hrange], fun h => absurd h hrange, by simp [hrange]⟩
    | unterminatedString => cases hfound
    | @unrecognizedInput c cs _ _ hnone =>
        cases hfound
        exact .inl ⟨c, rfl, rfl, by simp, hnone⟩
  · obtain ⟨t, ht, rfl, rfl⟩ := Script.exists_token_of_ofTokens he hp hfound
    obtain ⟨q, blank, hr, -⟩ := Source.readsAll_of_tokens hts
    obtain ⟨l, before, rest, hcode, hplace, hl, hdecodes⟩ := hr.exists_lexeme t ht
    have hrange : l.InRange := Lexeme.exists_decodes_iff.1 ⟨_, hdecodes⟩
    refine ⟨before, l.spelling ++ rest, hcode, hplace, .inr ⟨l, hl, ?_, ?_, ?_⟩⟩
    · refine ⟨fun hcause => absurd ?_ hlexical, fun h => absurd hrange h⟩
      rw [hcause]
      trivial
    · exact fun _ => ⟨t.token, hdecodes, rfl⟩
    · rw [Lexeme.text_eq_spelling_iff hl.valid hdecodes]
      simp [hrange]

/-- A place with a zero in front of its row, behind a comment on the line above. -/
theorem read_quotes_cell :
    let source := "program p ; é\n write [01,2] [03,4]"
    let e : SyntaxError := ⟨.expectedAssign "[3,4]", some "p", some ⟨2, 15⟩⟩
    Script.read source = .error e ∧
      ∃ before rest, Source.codeOf source.toList = before ++ rest ∧
        (⟨2, 15⟩ : Position) = Position.start.after before ∧
        ∃ l : Lexeme, l.Longest rest ∧ (l.InRange → ∃ t, l.Decodes t ∧ "[3,4]" = t.text) ∧
          ("[3,4]".toList = l.spelling ↔ (l.InRange → l.Plain)) := by
  intro source e
  have he : Script.read source = .error e := by decide +kernel
  obtain ⟨before, rest, hcode, hplace, ⟨c, hcause, -⟩ | ⟨l, hl, -, htext, hspelling⟩⟩ :=
    read_quotes he rfl rfl
  · cases hcause
  · exact ⟨he, before, rest, hcode, hplace, l, hl, htext, hspelling⟩

/-- What is quoted need not be written at its place: a number is quoted without the zeros in front
of it. -/
theorem read_quotes_leading_zeros :
    let e : SyntaxError := ⟨.expectedProgram "7", none, some ⟨1, 1⟩⟩
    Script.read "007" = .error e ∧ e.cause.lexeme? = some "7" ∧
      ∀ before rest, Source.codeOf "007".toList = before ++ rest →
        (⟨1, 1⟩ : Position) = Position.start.after before → ¬ "7".toList <+: rest := by
  intro e
  refine ⟨by decide +kernel, rfl, ?_⟩
  intro before rest hcode hplace
  cases before with
  | nil =>
      rw [← List.nil_append rest, ← hcode]
      decide +kernel
  | cons c before =>
      have hlater := Position.start.before_after_cons c before
      rw [← hplace] at hlater
      simp [Position.Before, Position.start] at hlater

end GridLang
