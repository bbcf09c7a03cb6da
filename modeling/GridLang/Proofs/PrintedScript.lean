import GridLang.Proofs.Grammar
import GridLang.Proofs.Tokenization
import Mathlib.Tactic.TFAE

/-!
# GridLang.Proofs.PrintedScript

**Which scripts are read back from their text form.** A script can hold names and operands that no
source text has: a name with a blank, a negative number, a text with a quote in it. The scripts
without such parts are called readable (`Script.Readable`), and `tfae_readable` says that they are
exactly those that some text defines, and exactly those that their own text form defines.

* `Source.readable_of_tokens`: no token of any text is unreadable. The grammar takes this to the
  scripts (`Script.Spelled.readable`).
* `Source.Prints` says of a piece of text that it is read as some tokens, whatever comes behind it.
  Such pieces can be put together (`Prints.append`), and a readable script is made of them. A piece
  is a lexeme with the separator behind it, since a lexeme alone could go on in what follows.
-/

namespace GridLang

/-! ### Readable scripts -/

/-- A name that can be written in a source text. The other keywords have a hyphen in them. -/
def ReadableName (name : String) : Prop :=
  Lexeme.IsName name.toList ∧ name ∉ ["program", "call", "write"]

/-- An operand that can be written in a source text, where numbers have no sign and quotes and
semicolons cannot be escaped. -/
def Operand.Readable : Operand → Prop
  | number n => 0 ≤ n
  | text s => '"' ∉ s.toList ∧ ';' ∉ s.toList
  | cell _ => True

/-- An instruction with readable operands and a readable target. -/
def Instruction.Readable : Instruction → Prop
  | write _ value => value.Readable
  | call target => ReadableName target
  | callIf c target => c.left.Readable ∧ c.right.Readable ∧ ReadableName target

/-- A program with a readable name and readable instructions. -/
def Program.Readable (p : Program) : Prop := ReadableName p.name ∧ ∀ i ∈ p.body, i.Readable

/-- A script of readable programs. -/
def Script.Readable (s : Script) : Prop := ∀ p ∈ s.programs, p.Readable

/-- A token that can come from a source text. -/
def Token.Readable : Token → Prop
  | identifier name => ReadableName name
  | integer n => 0 ≤ n
  | string s => '"' ∉ s.toList ∧ ';' ∉ s.toList
  | keyword _ | cell _ | assign | comparator _ | comma => True

/-- A readable name is written like no keyword. -/
theorem readableName_iff {name : String} :
    ReadableName name ↔ Lexeme.IsName name.toList ∧ ∀ k : Keyword, name ≠ k.text := by
  refine and_congr_right fun hn => ?_
  constructor
  · intro h k hk
    subst hk
    cases k with
    | program | call | write => exact h (by decide)
    | programEnd => exact absurd (hn.isWordChar '-' (by decide)) (by decide)
    | callIf => exact absurd (hn.isWordChar '-' (by decide)) (by decide)
  · intro h hmem
    simp only [List.mem_cons, List.not_mem_nil, or_false] at hmem
    rcases hmem with rfl | rfl | rfl
    · exact h .program rfl
    · exact h .call rfl
    · exact h .write rfl

/-! ### What can be read is readable -/

/-- A name outside keywords and texts is readable as a text, too. -/
theorem ReadableName.text {name : String} (h : ReadableName name) :
    (Operand.text name).Readable := by
  constructor
  · intro hq
    exact absurd (h.1.isWordChar _ hq) (by decide)
  · intro hs
    exact absurd (h.1.isWordChar _ hs) (by decide)

theorem Operand.Spelled.readable {o : Operand} {t : Token} (h : o.Spelled t) (ht : t.Readable) :
    o.Readable := by
  cases h with
  | cell a => trivial
  | number n => exact ht
  | string s => exact ht
  | identifier s => exact ReadableName.text ht

theorem Instruction.Spelled.readable {i : Instruction} {ts : List Token} (h : i.Spelled ts)
    (ht : ∀ t ∈ ts, t.Readable) : i.Readable := by
  cases h with
  | write a hv => exact hv.readable (ht _ (by simp))
  | call target => exact ht (.identifier target) (by simp)
  | callIf c target hl hr =>
      exact ⟨hl.readable (ht _ (by simp)), hr.readable (ht _ (by simp)),
        ht (.identifier target) (by simp)⟩

/-- What each member takes from its own tokens, all take from all tokens. -/
theorem InTurn.forall {α : Type} {Spells : α → List Token → Prop} {P : Token → Prop}
    {Q : α → Prop} {as : List α} {ts : List Token} (h : InTurn Spells as ts)
    (step : ∀ a ts, Spells a ts → (∀ t ∈ ts, P t) → Q a) (ht : ∀ t ∈ ts, P t) :
    ∀ a ∈ as, Q a := by
  induction h with
  | nil => simp
  | @cons a as ts us ha _ ih =>
      intro b hb
      rcases List.mem_cons.1 hb with rfl | hb
      · exact step b ts ha fun t h => ht t (List.mem_append_left us h)
      · exact ih (fun t h => ht t (List.mem_append_right ts h)) b hb

theorem Program.Spelled.readable {p : Program} {ts : List Token} (h : p.Spelled ts)
    (ht : ∀ t ∈ ts, t.Readable) : p.Readable := by
  cases h with
  | @intro name body ts hb =>
      refine ⟨ht (.identifier name) (by simp), fun i hi => ?_⟩
      have body := hb.forall (fun _ _ => Instruction.Spelled.readable) fun t h => ht t (by simp [h])
      exact body i (Array.mem_toList_iff.2 hi)

theorem Script.Spelled.readable {s : Script} {ts : List Token} (h : s.Spelled ts)
    (ht : ∀ t ∈ ts, t.Readable) : s.Readable := by
  intro p hp
  exact InTurn.forall h (fun _ _ => Program.Spelled.readable) ht p (Array.mem_toList_iff.2 hp)

/-- A lexeme outside comments has a readable token. -/
theorem Lexeme.Decodes.readable {l : Lexeme} {t : Token} (h : l.Decodes t) (hv : l.Valid)
    (hp : l.Proper) (hc : ';' ∉ l.spelling) : t.Readable := by
  cases h with
  | string contents =>
      rw [Token.Readable, String.toList_ofList]
      exact ⟨hv, fun hs => hc (by simp [spelling, hs])⟩
  | integer hn =>
      rw [Token.Readable, Int64.le_iff_toInt_le, hn]
      exact Int.natCast_nonneg _
  | identifier name =>
      refine readableName_iff.2 ⟨by rwa [String.toList_ofList], fun k hk => ?_⟩
      have hkey := hp k (by rw [← hk, String.toList_ofList, spelling])
      cases hkey
  | keyword | cell | assign | comparator | comma => trivial

namespace Source

theorem semicolon_not_mem_copyOutsideComment (inside : Bool) (cs : List Char) :
    ';' ∉ copyOutsideComment inside cs := by
  induction cs generalizing inside with
  | nil => simp [copyOutsideComment]
  | cons c cs ih =>
      rw [copyOutsideComment]
      split
      next h => simp [h, ih]
      next =>
        split
        next => exact ih true
        next h =>
          have hc : ';' ≠ c := fun e => h (by simp [← e])
          simp [hc, ih]

theorem withoutComments_cons {c : Char} (cs : List Char) (h : c ≠ ';') :
    withoutComments (c :: cs) = c :: withoutComments cs := by
  simp [withoutComments, copyOutsideComment, h]

/-- Where no comment begins, nothing goes. -/
theorem withoutComments_append_of_not_mem {cs : List Char} (ds : List Char) (h : ';' ∉ cs) :
    withoutComments (cs ++ ds) = cs ++ withoutComments ds := by
  induction cs with
  | nil => rfl
  | cons c cs ih =>
      obtain ⟨hc, hcs⟩ := List.ne_and_not_mem_of_not_mem_cons h
      rw [List.cons_append, withoutComments_cons _ hc.symm, ih hcs, List.cons_append]

theorem withoutComments_of_not_mem {cs : List Char} (h : ';' ∉ cs) : withoutComments cs = cs := by
  calc
    withoutComments cs = withoutComments (cs ++ []) := by rw [List.append_nil]
    _ = cs ++ [] := withoutComments_append_of_not_mem [] h
    _ = cs := List.append_nil cs

theorem Reads.readable {p q : Position} {cs rest : List Char} {ts : List LocatedToken}
    (h : Reads p cs ts q rest) (hc : ';' ∉ cs) : ∀ t ∈ ts, t.token.Readable := by
  induction h with
  | nil => simp
  | @cons p q blank cs rest l t ts _ hl ht _ ih =>
      simp only [List.mem_append, not_or] at hc
      intro u hu
      rcases List.mem_cons.1 hu with rfl | hu
      · exact ht.readable hl.valid hl.proper hc.2.1
      · exact ih hc.2.2 u hu

/-- **Every token of a source text is readable.** -/
theorem readable_of_tokens {source : String} {ts : List LocatedToken}
    (h : tokens source = .ok ts) : ∀ t ∈ ts, t.token.Readable := by
  obtain ⟨q, blank, hr, -⟩ := readsAll_of_tokens h
  rw [← withoutComments_eq] at hr
  exact hr.readable (semicolon_not_mem_copyOutsideComment false _)

end Source

/-- What a text defines is readable. -/
theorem Script.readable_of_read {text : String} {s : Script} (h : read text = .ok s) :
    s.Readable := by
  rw [read] at h
  cases ht : Source.tokens text with
  | error e =>
      rw [ht] at h
      cases h
  | ok ts =>
      rw [ht] at h
      refine Spelled.readable (spelled_of_ofTokens h) fun t hmem => ?_
      obtain ⟨u, hu, rfl⟩ := List.mem_map.1 hmem
      exact Source.readable_of_tokens ht u hu

/-! ### Texts that are one lexeme -/

/-- A text is the lexeme of a token, and has no comment. -/
def Written (s : String) (t : Token) : Prop :=
  ∃ l : Lexeme, l.spelling = s.toList ∧ l.Valid ∧ l.Proper ∧ l.Decodes t ∧ ';' ∉ s.toList

theorem Lexeme.IsDigits.proper {ds : List Char} (h : IsDigits ds) : (integer ds).Proper := by
  obtain ⟨d, ds', rfl⟩ := List.exists_cons_of_ne_nil h.1
  refine proper_of_spelling rfl ?_
  rw [Bool.eq_false_iff]
  intro hw
  have hd := isDigit_eq_false_of_isWordStart hw
  rw [h.2 d List.mem_cons_self] at hd
  cases hd

theorem written_keyword (k : Keyword) : Written k.text (.keyword k) :=
  ⟨.keyword k, rfl, trivial, Lexeme.proper_keyword k, .keyword k, by cases k <;> decide⟩

theorem written_assign : Written ":=" .assign :=
  ⟨.assign, rfl, trivial, Lexeme.proper_of_spelling rfl (by decide), .assign, by decide⟩

theorem written_comma : Written "," .comma :=
  ⟨.comma, rfl, trivial, Lexeme.proper_of_spelling rfl (by decide), .comma, by decide⟩

theorem written_comparator (c : Comparator) : Written c.text (.comparator c) :=
  ⟨.comparator c, rfl, trivial, Lexeme.proper_comparator c, .comparator c,
    by cases c <;> decide⟩

theorem written_cell (a : Address) : Written a.text (.cell a) := by
  have hrow := isDigits_toDigits a.row.toNat
  have hcol := isDigits_toDigits a.col.toNat
  have hs : (Lexeme.cell (Nat.toDigits 10 a.row.toNat) (Nat.toDigits 10 a.col.toNat)).spelling =
      a.text.toList := by
    simp [Lexeme.spelling, Address.text, Numeral.ofUInt64]
  refine ⟨_, hs, ⟨hrow, hcol⟩, Lexeme.proper_of_spelling rfl (by decide), ?_, ?_⟩
  · exact .cell (Numeral.value_toDigits _).symm (Numeral.value_toDigits _).symm
  · rw [← hs]
    have hsemicolon : Char.isDigit ';' = false := rfl
    simp [Lexeme.spelling, hrow.not_mem hsemicolon, hcol.not_mem hsemicolon]

theorem written_string {s : String} (h : '"' ∉ s.toList ∧ ';' ∉ s.toList) :
    Written ("\"" ++ s ++ "\"") (.string s) := by
  refine ⟨.string s.toList, by simp [Lexeme.spelling], h.1,
    Lexeme.proper_of_spelling rfl (by decide), ?_, by simp [h.2]⟩
  simpa using Lexeme.Decodes.string s.toList

theorem written_integer {n : Int64} (h : 0 ≤ n) : Written (Numeral.ofInt64 n) (.integer n) := by
  have hn : 0 ≤ n.toInt := Int64.le_iff_toInt_le.1 h
  have hd := isDigits_toDigits n.toInt.natAbs
  have hs : (Numeral.ofInt64 n).toList = Nat.toDigits 10 n.toInt.natAbs := by
    rw [Numeral.ofInt64, if_neg (by omega), Numeral.toList_ofNat]
  refine ⟨.integer (Nat.toDigits 10 n.toInt.natAbs), hs.symm, hd, hd.proper, ?_, ?_⟩
  · refine .integer ?_
    rw [Numeral.value_toDigits]
    omega
  · rw [hs]
    exact hd.not_mem rfl

theorem written_name {name : String} (h : ReadableName name) : Written name (.identifier name) := by
  refine ⟨.identifier name.toList, rfl, h.1, ?_, ?_, h.text.2⟩
  · intro k hk
    exact absurd (String.toList_inj.1 hk) ((readableName_iff.1 h).2 k)
  · simpa using Lexeme.Decodes.identifier name.toList

/-- A readable operand is written as one lexeme that stands for it. -/
theorem Operand.Readable.exists_written {o : Operand} (h : o.Readable) :
    ∃ t, o.Spelled t ∧ Written o.source t := by
  cases o with
  | number n => exact ⟨_, .number n, written_integer h⟩
  | text s => exact ⟨_, .string s, written_string h⟩
  | cell a => exact ⟨_, .cell a, written_cell a⟩

namespace Source

/-! ### Pieces of text -/

/-- A piece of text without comments is read as some tokens, whatever comes behind it. -/
structure Prints (s : String) (toks : List Token) : Prop where
  plain : ';' ∉ s.toList
  reads : ∀ (p : Position) (rest : List Char), ∃ ts : List LocatedToken,
    ts.map LocatedToken.token = toks ∧
      tokensFrom p (s.toList ++ rest) = (tokensFrom (p.after s.toList) rest).map (ts ++ ·)

theorem prints_of_isBlank {s : String} (h : IsBlank s.toList) : Prints s [] where
  plain hs := absurd (h _ hs) (by decide)
  reads p rest := by
    refine ⟨[], rfl, ?_⟩
    rw [tokensFrom_of_isBlank rest h]
    cases tokensFrom (p.after s.toList) rest <;> rfl

theorem Prints.append {s s' : String} {toks toks' : List Token} (h : Prints s toks)
    (h' : Prints s' toks') : Prints (s ++ s') (toks ++ toks') where
  plain := by simp [h.plain, h'.plain]
  reads p rest := by
    obtain ⟨ts, rfl, hts⟩ := h.reads p (s'.toList ++ rest)
    obtain ⟨ts', rfl, hts'⟩ := h'.reads (p.after s.toList) rest
    refine ⟨ts ++ ts', List.map_append, ?_⟩
    rw [String.toList_append, List.append_assoc, hts, hts', Position.after_append]
    cases tokensFrom ((p.after s.toList).after s'.toList) rest <;> simp [Except.map]

/-- A lexeme in front of a separator is cut off there. -/
theorem Prints.cons {s sep : String} {t : Token} {toks : List Token} (h : Written s t)
    (hsep : Prints sep toks) (apart : ∀ rest, Lexeme.Apart (sep.toList ++ rest)) :
    Prints (s ++ sep) (t :: toks) where
  plain := by
    obtain ⟨-, -, -, -, -, hs⟩ := h
    simp [hs, hsep.plain]
  reads p rest := by
    obtain ⟨l, hl, hv, hp, ht, -⟩ := h
    obtain ⟨ts, rfl, hts⟩ := hsep.reads (p.after s.toList) rest
    refine ⟨⟨t, p⟩ :: ts, rfl, ?_⟩
    have hf := Lexeme.front?_spelling_append hv hp (apart rest)
    rw [String.toList_append, List.append_assoc, ← hl,
      tokensFrom_of_decodes (Lexeme.longest_of_front? hf) ht, hl, hts, Position.after_append]
    cases tokensFrom ((p.after s.toList).after sep.toList) rest <;> rfl

theorem apart_cons {c : Char} (cs : List Char)
    (h : Lexeme.isWordChar c = false ∧ c ≠ '-' ∧ c ≠ '=') : Lexeme.Apart (c :: cs) := by
  intro d hd
  cases hd
  exact h

/-! ### The pieces of a script -/

theorem prints_space {s : String} {t : Token} (h : Written s t) : Prints (s ++ " ") [t] :=
  .cons h (prints_of_isBlank (by simp [IsBlank, isSpace])) fun rest => apart_cons rest (by decide)

theorem prints_line {s : String} {t : Token} (h : Written s t) : Prints (s ++ "\n") [t] :=
  .cons h (prints_of_isBlank (by simp [IsBlank, isSpace])) fun rest => apart_cons rest (by decide)

theorem prints_comma {s : String} {t : Token} (h : Written s t) :
    Prints (s ++ ", ") [t, .comma] :=
  .cons h (prints_space written_comma) fun rest => apart_cons (' ' :: rest) (by decide)

theorem exists_prints_instruction {i : Instruction} (h : i.Readable) :
    ∃ toks, i.Spelled toks ∧ Prints (i.source ++ "\n") toks := by
  cases i with
  | write a value =>
      obtain ⟨t, hv, ht⟩ := h.exists_written
      refine ⟨_, .write a hv, ?_⟩
      have pieces := (prints_space (written_keyword .write)).append <|
        (prints_space (written_cell a)).append <| (prints_space written_assign).append <|
          prints_line ht
      have sign : ∀ s : String, " " ++ (":= " ++ s) = " := " ++ s := by
        intro s
        rw [← String.append_assoc]
        rfl
      simpa [Instruction.source, Keyword.text, String.append_assoc, sign] using pieces
  | call target =>
      refine ⟨_, .call target, ?_⟩
      have pieces := (prints_space (written_keyword .call)).append <| prints_line (written_name h)
      simpa [Instruction.source, Keyword.text, String.append_assoc] using pieces
  | callIf c target =>
      obtain ⟨left, comparator, right⟩ := c
      obtain ⟨hleft, hright, hname⟩ := h
      obtain ⟨l, hl, hlt⟩ := hleft.exists_written
      obtain ⟨r, hr, hrt⟩ := hright.exists_written
      refine ⟨_, .callIf comparator target hl hr, ?_⟩
      have pieces := (prints_space (written_keyword .callIf)).append <|
        (prints_space hlt).append <| (prints_space (written_comparator comparator)).append <|
          (prints_comma hrt).append <| prints_line (written_name hname)
      simpa [Instruction.source, Condition.source, Keyword.text, String.append_assoc] using pieces

/-- Pieces for each member make up a text for all. -/
theorem exists_prints_join {α : Type} {Spells : α → List Token → Prop} {text : α → String}
    {as : List α} (h : ∀ a ∈ as, ∃ toks, Spells a toks ∧ Prints (text a) toks) :
    ∃ toks, InTurn Spells as toks ∧ Prints (String.join (as.map text)) toks := by
  induction as with
  | nil => exact ⟨[], .nil, prints_of_isBlank (by simp [IsBlank])⟩
  | cons a as ih =>
      obtain ⟨toks, ha, hp⟩ := h a List.mem_cons_self
      obtain ⟨toks', has, hps⟩ := ih fun b hb => h b (List.mem_cons_of_mem a hb)
      refine ⟨toks ++ toks', .cons ha has, ?_⟩
      rw [List.map_cons, String.join_cons]
      exact hp.append hps

theorem exists_prints_program {p : Program} (h : p.Readable) :
    ∃ toks, p.Spelled toks ∧ Prints (p.source ++ "\n") toks := by
  obtain ⟨name, body⟩ := p
  obtain ⟨hname, hbody⟩ := h
  have line : ∀ i ∈ body.toList, ∃ toks, i.Spelled toks ∧
      Prints ("    " ++ i.source ++ "\n") toks := by
    intro i hi
    obtain ⟨toks, hi, hp⟩ := exists_prints_instruction (hbody i (Array.mem_toList_iff.1 hi))
    refine ⟨toks, hi, ?_⟩
    rw [String.append_assoc]
    exact (prints_of_isBlank (by simp [IsBlank, isSpace])).append hp
  obtain ⟨toks, hs, hp⟩ := exists_prints_join line
  refine ⟨_, .intro hs, ?_⟩
  have pieces := (prints_space (written_keyword .program)).append <|
    (prints_line (written_name hname)).append <| hp.append <|
      prints_line (written_keyword .programEnd)
  simpa [Program.source, Keyword.text, String.append_assoc] using pieces

/-- Between programs stands a blank line. -/
theorem intercalate_cons_eq_join (sep s : String) (ss : List String) :
    sep.intercalate (s :: ss) = s ++ String.join (ss.map fun t => sep ++ t) := by
  induction ss generalizing s with
  | nil => simp
  | cons t ss ih =>
      rw [String.intercalate_cons_cons, ih, List.map_cons, String.join_cons]
      simp only [String.append_assoc]

theorem exists_prints_script {s : Script} (h : s.Readable) :
    ∃ toks, s.Spelled toks ∧ Prints s.source toks := by
  have program : ∀ p ∈ s.programs.toList, ∃ toks, p.Spelled toks ∧
      Prints (p.source ++ "\n") toks := fun p hp =>
    exists_prints_program (h p (Array.mem_toList_iff.1 hp))
  unfold Script.Spelled Script.source
  generalize s.programs.toList = ps at *
  cases ps with
  | nil => exact ⟨[], .nil, prints_of_isBlank (by simp [IsBlank])⟩
  | cons p ps =>
      obtain ⟨toks, hs, hp⟩ := program p List.mem_cons_self
      have further : ∀ q ∈ ps, ∃ toks, q.Spelled toks ∧
          Prints ("\n" ++ (q.source ++ "\n")) toks := by
        intro q hq
        obtain ⟨toks, hs, hp⟩ := program q (List.mem_cons_of_mem p hq)
        exact ⟨toks, hs, (prints_of_isBlank (by simp [IsBlank, isSpace])).append hp⟩
      obtain ⟨toks', hss, hps⟩ := exists_prints_join further
      refine ⟨toks ++ toks', .cons hs hss, ?_⟩
      rw [List.map_cons, intercalate_cons_eq_join, List.map_map]
      exact hp.append hps

end Source

namespace Script

/-- **A readable script is read back from its text form.** -/
theorem read_source {s : Script} (h : s.Readable) : read s.source = .ok s := by
  obtain ⟨toks, hs, hp⟩ := Source.exists_prints_script h
  obtain ⟨ts, rfl, hts⟩ := hp.reads .start []
  rw [List.append_nil, Source.tokensFrom_nil] at hts
  rw [read, Source.tokens, Source.withoutComments_of_not_mem hp.plain, hts]
  show ofTokens (ts ++ []) = .ok s
  rw [List.append_nil]
  exact ofTokens_of_spelled hs

/-- **The readable scripts are exactly those that some text defines**, and exactly those that are
read back from their own text form. -/
theorem tfae_readable (s : Script) :
    List.TFAE [read s.source = .ok s, ∃ text, read text = .ok s, s.Readable] := by
  tfae_have 1 → 2 := fun h => ⟨s.source, h⟩
  tfae_have 2 → 3 := fun ⟨_, h⟩ => readable_of_read h
  tfae_have 3 → 1 := read_source
  tfae_finish

end Script

end GridLang
