import GridLang.Lexeme
import Mathlib.Data.List.TakeWhile

/-!
# GridLang.Proofs.LongestLexeme

**The first lexeme of a text is the longest.** The lexical classes are said here without the
scanner (`Lexeme.Valid`): a lexeme is a keyword, an address, a sign, a text between quotes, a run of
digits or a name. A text may start with several of them, and `Lexeme.Longest` picks the one that
counts: none is longer, and a keyword comes before a name of equal length.

* `front?_eq_some_iff`: the scanner finds exactly that lexeme.
* `front?_eq_none_iff`: it finds none exactly where no lexeme is in front.
* `front?_eq_comparator_iff`, `front?_eq_keyword_iff`: a text that is one sign or word and nothing
  else is found as what it is on its own.
* `front?_spelling_append`: a lexeme that is followed by something that cannot go on any lexeme
  (`Apart`) is found whole.

The scanner decides by the first character and then compares at most a keyword and a name, so the
comparison with all other lexemes goes by their classes (`exists_front?_of_valid`).
-/

namespace GridLang.Lexeme

/-! ### Lexical classes -/

/-- A run of digits. -/
def IsDigits (ds : List Char) : Prop := ds ≠ [] ∧ ∀ c ∈ ds, c.isDigit = true

/-- A run of letters, digits and underscores that does not start with a digit. -/
def IsName (name : List Char) : Prop :=
  ∃ c cs, name = c :: cs ∧ isWordStart c = true ∧ ∀ d ∈ cs, isWordChar d = true

/-- What is written is a lexeme of its class. -/
def Valid : Lexeme → Prop
  | keyword _ | assign | comparator _ | comma => True
  | cell row col => IsDigits row ∧ IsDigits col
  | string contents => '"' ∉ contents
  | integer digits => IsDigits digits
  | identifier name => IsName name

/-- A keyword or a name. -/
def IsWord (l : Lexeme) : Prop := (∃ k, l = keyword k) ∨ ∃ name, l = identifier name

/-- A lexeme that is no keyword is not written like one. -/
def Proper (l : Lexeme) : Prop := ∀ k, l.spelling = k.text.toList → l = keyword k

/-- The lexeme that a text starts with: of all that are in front of it the longest, and a keyword
before a name. -/
structure Longest (l : Lexeme) (cs : List Char) : Prop where
  valid : l.Valid
  front : l.spelling <+: cs
  longest : ∀ l' : Lexeme, l'.Valid → l'.spelling <+: cs → l'.spelling.length ≤ l.spelling.length
  proper : l.Proper

/-- No lexeme goes on with the first character of a text, if it has one. -/
def Apart (cs : List Char) : Prop :=
  ∀ c ∈ cs.head?, isWordChar c = false ∧ c ≠ '-' ∧ c ≠ '='

/-! ### Runs of characters -/

theorem takeWhile_run {p : Char → Bool} {run rest : List Char} (h : ∀ c ∈ run, p c = true)
    (hr : ∀ c ∈ rest.head?, p c = false) : (run ++ rest).takeWhile p = run := by
  rw [List.takeWhile_append_of_pos h]
  cases rest with
  | nil => simp
  | cons c rest => simp [hr c rfl]

theorem dropWhile_run {p : Char → Bool} {run rest : List Char} (h : ∀ c ∈ run, p c = true)
    (hr : ∀ c ∈ rest.head?, p c = false) : (run ++ rest).dropWhile p = rest := by
  rw [List.dropWhile_append_of_pos h]
  cases rest with
  | nil => rfl
  | cons c rest => simp [hr c rfl]

theorem IsDigits.not_mem {ds : List Char} {c : Char} (h : IsDigits ds) (hc : c.isDigit = false) :
    c ∉ ds := by
  intro hmem
  rw [h.2 c hmem] at hc
  cases hc

theorem isDigits_takeWhile {c : Char} {cs rest : List Char}
    (h : rest.takeWhile Char.isDigit = c :: cs) : IsDigits (c :: cs) :=
  ⟨List.cons_ne_nil c cs, fun _ hd => List.mem_takeWhile_imp (h ▸ hd)⟩

theorem isWordChar_of_isDigit {c : Char} (h : c.isDigit = true) : isWordChar c = true := by
  simp [isWordChar, Char.isAlphanum, h]

theorem IsName.isWordChar {name : List Char} (h : IsName name) :
    ∀ c ∈ name, Lexeme.isWordChar c = true := by
  obtain ⟨c, cs, rfl, hc, hcs⟩ := h
  intro d hd
  rcases List.mem_cons.1 hd with rfl | hd
  · exact isWordChar_of_isWordStart hc
  · exact hcs d hd

/-! ### Where the scanner starts a word or a number -/

/-- No sign and no opening bracket or quote is a character of a word. -/
theorem front?_of_isWordChar {c : Char} (cs : List Char) (h : isWordChar c = true) :
    front? (c :: cs) =
      if c.isDigit then
        some (integer ((c :: cs).takeWhile Char.isDigit), (c :: cs).dropWhile Char.isDigit)
      else if isWordStart c then some (wordFront (c :: cs))
      else none := by
  unfold front?
  split
  case h_10 e =>
    cases e
    rfl
  case h_11 e => cases e
  all_goals
    next e =>
      cases e
      exact absurd h (by decide)

theorem front?_of_isDigit {c : Char} (cs : List Char) (h : c.isDigit = true) :
    front? (c :: cs) =
      some (integer ((c :: cs).takeWhile Char.isDigit), (c :: cs).dropWhile Char.isDigit) := by
  rw [front?_of_isWordChar cs (isWordChar_of_isDigit h), if_pos h]

theorem toNat_le_of_isDigit {c : Char} (h : c.isDigit = true) : c.toNat ≤ '9'.toNat :=
  (Char.isDigit_iff_toNat.1 h).2

/-- Letters and the underscore come behind the digits. -/
theorem lt_toNat_of_isWordStart {c : Char} (h : isWordStart c = true) : '9'.toNat < c.toNat := by
  rcases Bool.or_eq_true_iff.1 h with letter | underscore
  · rcases Bool.or_eq_true_iff.1 letter with upper | lower
    · have hle : 'A'.toNat ≤ c.toNat := UInt32.le_iff_toNat_le.1 (of_decide_eq_true upper).1
      exact Nat.lt_of_lt_of_le (by decide) hle
    · have hle : 'a'.toNat ≤ c.toNat :=
        UInt32.le_iff_toNat_le.1 (of_decide_eq_true (Bool.and_eq_true_iff.1 lower).1)
      exact Nat.lt_of_lt_of_le (by decide) hle
  · rw [of_decide_eq_true underscore]
    decide

theorem isDigit_eq_false_of_isWordStart {c : Char} (h : isWordStart c = true) :
    c.isDigit = false := by
  rw [Bool.eq_false_iff]
  intro hd
  exact Nat.lt_irrefl _ (Nat.lt_of_lt_of_le (lt_toNat_of_isWordStart h) (toNat_le_of_isDigit hd))

theorem front?_of_isWordStart {c : Char} (cs : List Char) (h : isWordStart c = true) :
    front? (c :: cs) = some (wordFront (c :: cs)) := by
  rw [front?_of_isWordChar cs (isWordChar_of_isWordStart h),
    if_neg (by simp [isDigit_eq_false_of_isWordStart h]), if_pos h]

/-! ### Keywords and names -/

theorem exists_isWordStart_keyword (k : Keyword) :
    ∃ c cs, k.text.toList = c :: cs ∧ isWordStart c = true := by
  cases k <;> exact ⟨_, _, rfl, by decide⟩

/-- A keyword in front of a text is found, or a longer one. -/
theorem exists_keyword_front? {k : Keyword} {cs : List Char} (h : k.text.toList <+: cs) :
    ∃ k', Keyword.front? cs = some k' ∧ k.text.length ≤ k'.text.length := by
  obtain ⟨rest, rfl⟩ := h
  cases k with
  | programEnd => exact ⟨.programEnd, rfl, Nat.le_refl _⟩
  | write => exact ⟨.write, rfl, Nat.le_refl _⟩
  | callIf => exact ⟨.callIf, rfl, Nat.le_refl _⟩
  | program =>
      cases hl : Keyword.programEnd.text.toList.isPrefixOf
          (Keyword.program.text.toList ++ rest) with
      | true =>
          refine ⟨.programEnd, ?_, by decide⟩
          simp only [Keyword.front?, Keyword.all, List.find?, hl]
      | false =>
          refine ⟨.program, ?_, Nat.le_refl _⟩
          simp only [Keyword.front?, Keyword.all, List.find?, hl]
          rfl
  | call =>
      have hend : Keyword.programEnd.text.toList.isPrefixOf (Keyword.call.text.toList ++ rest) =
          false := rfl
      have hstart : Keyword.program.text.toList.isPrefixOf (Keyword.call.text.toList ++ rest) =
          false := rfl
      cases hl : Keyword.callIf.text.toList.isPrefixOf (Keyword.call.text.toList ++ rest) with
      | true =>
          refine ⟨.callIf, ?_, by decide⟩
          simp only [Keyword.front?, Keyword.all, List.find?, hend, hstart, hl]
      | false =>
          refine ⟨.call, ?_, Nat.le_refl _⟩
          simp only [Keyword.front?, Keyword.all, List.find?, hend, hstart, hl]
          rfl

theorem keyword_eq_of_text {k k' : Keyword} (h : k.text.toList = k'.text.toList) : k = k' := by
  have hk : Keyword.ofText? k'.text = some k :=
    Keyword.ofText?_eq_some_iff.2 (String.toList_inj.1 h)
  rw [Keyword.ofText?_eq_some_iff.2 rfl] at hk
  exact (Option.some.inj hk).symm

/-- **Keyword or name.** A keyword is found if it is not shorter than the name, and then it is the
longest keyword there; else the name is found, and every keyword is shorter. -/
theorem wordFront_cases (cs : List Char) :
    (∃ k : Keyword, wordFront cs = (keyword k, cs.drop k.text.length) ∧
      (cs.takeWhile isWordChar).length ≤ k.text.length ∧
      ∀ k' : Keyword, k'.text.toList <+: cs → k'.text.length ≤ k.text.length) ∨
    (wordFront cs = (identifier (cs.takeWhile isWordChar), cs.dropWhile isWordChar) ∧
      ∀ k : Keyword, k.text.toList <+: cs → k.text.length < (cs.takeWhile isWordChar).length) := by
  unfold wordFront
  cases hf : Keyword.front? cs with
  | none =>
      refine .inr ⟨rfl, fun k hk => ?_⟩
      obtain ⟨k', hk', -⟩ := exists_keyword_front? hk
      rw [hf] at hk'
      cases hk'
  | some k₀ =>
      have hle : ∀ k : Keyword, k.text.toList <+: cs → k.text.length ≤ k₀.text.length := by
        intro k hk
        obtain ⟨k', hk', hle⟩ := exists_keyword_front? hk
        rw [hf] at hk'
        cases hk'
        exact hle
      dsimp only
      split
      next h => exact .inl ⟨k₀, rfl, h, hle⟩
      next h => exact .inr ⟨rfl, fun k hk => Nat.lt_of_le_of_lt (hle k hk) (Nat.lt_of_not_le h)⟩

theorem isWord_wordFront (cs : List Char) : (wordFront cs).1.IsWord := by
  rcases wordFront_cases cs with ⟨k, hw, -⟩ | ⟨hw, -⟩
  · rw [hw]
    exact .inl ⟨k, rfl⟩
  · rw [hw]
    exact .inr ⟨_, rfl⟩

theorem length_name_le_wordFront (cs : List Char) :
    (cs.takeWhile isWordChar).length ≤ (wordFront cs).1.spelling.length := by
  rcases wordFront_cases cs with ⟨k, hw, hle, -⟩ | ⟨hw, -⟩
  · rw [hw]
    exact hle
  · rw [hw]
    exact Nat.le_refl _

theorem length_keyword_le_wordFront {k : Keyword} {cs : List Char} (h : k.text.toList <+: cs) :
    k.text.length ≤ (wordFront cs).1.spelling.length := by
  rcases wordFront_cases cs with ⟨k₀, hw, -, hk⟩ | ⟨hw, hk⟩
  · rw [hw]
    exact hk k h
  · rw [hw]
    exact Nat.le_of_lt (hk k h)

theorem valid_wordFront {c : Char} {cs : List Char} (h : isWordStart c = true) :
    (wordFront (c :: cs)).1.Valid := by
  rcases wordFront_cases (c :: cs) with ⟨k, hw, -⟩ | ⟨hw, -⟩
  · rw [hw]
    trivial
  · rw [hw, List.takeWhile_cons_of_pos (isWordChar_of_isWordStart h)]
    exact ⟨c, _, rfl, h, fun _ hd => List.mem_takeWhile_imp hd⟩

/-- A word that is written like a keyword is that keyword. -/
theorem proper_wordFront (cs : List Char) : (wordFront cs).1.Proper := by
  intro k hk
  rcases wordFront_cases cs with ⟨k₀, hw, -⟩ | ⟨hw, hlt⟩
  · rw [hw] at hk ⊢
    rw [keyword_eq_of_text hk]
  · rw [hw] at hk
    have hname : cs.takeWhile isWordChar = k.text.toList := hk
    have hlen := hlt k (hname ▸ List.takeWhile_prefix isWordChar)
    rw [hname, String.length_toList] at hlen
    exact absurd hlen (Nat.lt_irrefl _)

/-! ### The lexeme that is found -/

theorem valid_of_front? {cs rest : List Char} {l : Lexeme} (h : front? cs = some (l, rest)) :
    l.Valid := by
  unfold front? at h
  split at h
  case h_8 =>
    unfold cellFront? at h
    split at h
    next hrow _ =>
      split at h
      next hcol _ =>
        cases h
        exact ⟨isDigits_takeWhile hrow, isDigits_takeWhile hcol⟩
      · cases h
    · cases h
  case h_9 =>
    obtain ⟨⟨contents, rest'⟩, hcut, e⟩ := Option.map_eq_some_iff.1 h
    cases e
    exact (Text.cut_eq_some_iff.1 hcut).2
  case h_10 =>
    split at h
    next digit =>
      cases h
      rw [List.takeWhile_cons_of_pos digit]
      exact isDigits_takeWhile (List.takeWhile_cons_of_pos digit)
    · split at h
      next word =>
        rw [show l = _ from (congrArg Prod.fst (Option.some.inj h)).symm]
        exact valid_wordFront word
      · cases h
  all_goals cases h
  all_goals trivial

/-- What does not start like a word is not written like a keyword. -/
theorem proper_of_spelling {l : Lexeme} {c : Char} {cs : List Char} (h : l.spelling = c :: cs)
    (hc : isWordStart c = false) : l.Proper := by
  intro k hk
  obtain ⟨d, ds, hd, hstart⟩ := exists_isWordStart_keyword k
  rw [hk, hd] at h
  cases h
  rw [hc] at hstart
  cases hstart

theorem proper_keyword (k : Keyword) : (keyword k).Proper := by
  intro k' hk
  rw [keyword_eq_of_text hk]

theorem proper_comparator (c : Comparator) : (comparator c).Proper := by
  cases c <;> exact proper_of_spelling rfl (by decide)

theorem proper_of_front? {cs rest : List Char} {l : Lexeme} (h : front? cs = some (l, rest)) :
    l.Proper := by
  have hcs := front?_eq h
  obtain ⟨c, ds, hl⟩ := List.exists_cons_of_ne_nil (spelling_ne_nil_of_front? h)
  rw [hl, List.cons_append] at hcs
  cases hc : isWordStart c with
  | true =>
      rw [← hcs, front?_of_isWordStart _ hc] at h
      rw [show l = _ from (congrArg Prod.fst (Option.some.inj h)).symm]
      exact proper_wordFront _
  | false => exact proper_of_spelling hl hc

/-! ### Lexemes that are found -/

/-- Behind a bracket, an address is found whole. -/
theorem cellFront?_append {row col : List Char} (hr : IsDigits row) (hc : IsDigits col)
    (rest : List Char) :
    cellFront? (row ++ ',' :: (col ++ ']' :: rest)) = some (cell row col, rest) := by
  have comma : ∀ d ∈ (',' :: (col ++ ']' :: rest)).head?, d.isDigit = false := by simp
  have bracket : ∀ d ∈ (']' :: rest).head?, d.isDigit = false := by simp
  unfold cellFront?
  rw [takeWhile_run hr.2 comma, dropWhile_run hr.2 comma]
  cases row with
  | nil => exact absurd rfl hr.1
  | cons r row =>
      simp only [takeWhile_run hc.2 bracket, dropWhile_run hc.2 bracket]
      cases col with
      | nil => exact absurd rfl hc.1
      | cons c col => rfl

/-- Behind a quote, a text operand is found whole. -/
theorem stringFront?_append {contents : List Char} (h : '"' ∉ contents) (rest : List Char) :
    stringFront? (contents ++ '"' :: rest) = some (string contents, rest) := by
  rw [stringFront?, Text.cut_eq_some_iff.2 ⟨rfl, h⟩]
  rfl

theorem front?_cell {row col : List Char} (hr : IsDigits row) (hc : IsDigits col)
    (rest : List Char) :
    front? ((cell row col).spelling ++ rest) = some (cell row col, rest) := by
  have h := cellFront?_append hr hc rest
  simpa [spelling, front?] using h

theorem front?_string {contents : List Char} (h : '"' ∉ contents) (rest : List Char) :
    front? ((string contents).spelling ++ rest) = some (string contents, rest) := by
  have h := stringFront?_append h rest
  simpa [spelling, front?] using h

/-- A sign of one character is found where no sign of two characters is. -/
theorem front?_comparator {c : Comparator} {rest : List Char} (h : ∀ cs, rest ≠ '=' :: cs) :
    front? ((comparator c).spelling ++ rest) = some (comparator c, rest) := by
  cases c with
  | eq | le | ge => rfl
  | lt =>
      show front? ('<' :: rest) = _
      rw [front?]
      exact h
  | gt =>
      show front? ('>' :: rest) = _
      rw [front?]
      exact h

/-- A lexeme of any class in front of a text is not longer than the one that is found. -/
theorem exists_front?_of_valid {l : Lexeme} {cs : List Char} (hv : l.Valid)
    (hp : l.spelling <+: cs) :
    ∃ l' rest, front? cs = some (l', rest) ∧ l.spelling.length ≤ l'.spelling.length := by
  obtain ⟨rest, rfl⟩ := hp
  cases l with
  | keyword k =>
      obtain ⟨c, ds, hk, hc⟩ := exists_isWordStart_keyword k
      have hle := length_keyword_le_wordFront (List.prefix_append k.text.toList rest)
      rw [spelling, String.length_toList]
      rw [hk, List.cons_append] at hle ⊢
      exact ⟨_, _, front?_of_isWordStart _ hc, hle⟩
  | cell row col => exact ⟨_, _, front?_cell hv.1 hv.2 rest, Nat.le_refl _⟩
  | assign => exact ⟨_, _, rfl, Nat.le_refl _⟩
  | comparator c =>
      by_cases h : ∃ cs, rest = '=' :: cs
      · obtain ⟨cs, rfl⟩ := h
        cases c <;> exact ⟨_, _, rfl, by decide⟩
      · exact ⟨_, _, front?_comparator fun cs hcs => h ⟨cs, hcs⟩, Nat.le_refl _⟩
  | comma => exact ⟨_, _, rfl, Nat.le_refl _⟩
  | string contents => exact ⟨_, _, front?_string hv rest, Nat.le_refl _⟩
  | integer digits =>
      obtain ⟨d, ds, rfl⟩ := List.exists_cons_of_ne_nil hv.1
      refine ⟨_, _, front?_of_isDigit (ds ++ rest) (hv.2 d List.mem_cons_self), ?_⟩
      show (d :: ds).length ≤ ((d :: ds ++ rest).takeWhile Char.isDigit).length
      rw [List.takeWhile_append_of_pos hv.2, List.length_append]
      exact Nat.le_add_right _ _
  | identifier name =>
      have hle := length_name_le_wordFront (name ++ rest)
      rw [List.takeWhile_append_of_pos hv.isWordChar, List.length_append] at hle
      obtain ⟨c, ds, rfl, hc, -⟩ := hv
      exact ⟨_, _, front?_of_isWordStart (ds ++ rest) hc, Nat.le_of_add_right_le hle⟩

theorem Apart.ne_equals {rest : List Char} (h : Apart rest) (cs : List Char) :
    rest ≠ '=' :: cs := by
  rintro rfl
  exact (h '=' rfl).2.2 rfl

theorem Apart.not_digit {rest : List Char} (h : Apart rest) :
    ∀ c ∈ rest.head?, c.isDigit = false := by
  intro c hc
  rw [Bool.eq_false_iff]
  intro hd
  exact Bool.eq_false_iff.1 (h c hc).1 (isWordChar_of_isDigit hd)

theorem isWordChar_or_hyphen_of_mem_keyword {k : Keyword} {c : Char} (h : c ∈ k.text.toList) :
    isWordChar c = true ∨ c = '-' := by
  have all : k.text.toList.all (fun d => isWordChar d || d = '-') = true := by
    cases k <;> rfl
  simpa using List.all_eq_true.1 all c h

theorem isWordChar_or_hyphen_of_mem_wordFront {cs : List Char} {c : Char}
    (h : c ∈ (wordFront cs).1.spelling) : isWordChar c = true ∨ c = '-' := by
  rcases wordFront_cases cs with ⟨k, hw, -⟩ | ⟨hw, -⟩
  · rw [hw] at h
    exact isWordChar_or_hyphen_of_mem_keyword h
  · rw [hw] at h
    exact .inl (List.mem_takeWhile_imp h)

/-- A word that stands apart is found whole, once nothing shorter is. -/
theorem wordFront_append {l : Lexeme} {rest : List Char} (hp : l.Proper)
    (hl : l.IsWord) (hr : Apart rest)
    (hle : l.spelling.length ≤ (wordFront (l.spelling ++ rest)).1.spelling.length) :
    wordFront (l.spelling ++ rest) = (l, rest) := by
  have heq := wordFront_eq (l.spelling ++ rest)
  have hchars := @isWordChar_or_hyphen_of_mem_wordFront (l.spelling ++ rest)
  have hproper := proper_wordFront (l.spelling ++ rest)
  have hword := isWord_wordFront (l.spelling ++ rest)
  generalize wordFront (l.spelling ++ rest) = found at *
  obtain ⟨w, after⟩ := found
  obtain ⟨more, hw, hrest⟩ : ∃ more, w.spelling = l.spelling ++ more ∧ rest = more ++ after := by
    obtain ⟨more, hw⟩ := List.prefix_of_prefix_length_le ⟨rest, rfl⟩ ⟨after, heq⟩ hle
    refine ⟨more, hw.symm, ?_⟩
    rw [← hw, List.append_assoc] at heq
    exact (List.append_cancel_left heq).symm
  -- What is found does not go on into the rest.
  obtain rfl : more = [] := by
    cases more with
    | nil => rfl
    | cons c more =>
        have hc := hr c (by rw [hrest]; rfl)
        rcases hchars (show c ∈ w.spelling by rw [hw]; simp) with h | h
        · rw [hc.1] at h
          cases h
        · exact absurd h hc.2.1
  rw [List.append_nil] at hw
  obtain rfl : w = l := by
    rcases hword with ⟨k, rfl⟩ | ⟨name, rfl⟩
    · exact (hp k hw.symm).symm
    · rcases hl with ⟨k, rfl⟩ | ⟨name', rfl⟩
      · exact hproper k hw
      · exact congrArg identifier hw
  rw [hrest]
  rfl

/-- **A lexeme that stands apart is found whole.** -/
theorem front?_spelling_append {l : Lexeme} {rest : List Char} (hv : l.Valid) (hp : l.Proper)
    (hr : Apart rest) : front? (l.spelling ++ rest) = some (l, rest) := by
  cases l with
  | keyword k =>
      have hle := length_keyword_le_wordFront (List.prefix_append k.text.toList rest)
      rw [← String.length_toList] at hle
      rw [← wordFront_append hp (.inl ⟨k, rfl⟩) hr hle]
      obtain ⟨c, ds, hk, hc⟩ := exists_isWordStart_keyword k
      rw [spelling, hk]
      exact front?_of_isWordStart (ds ++ rest) hc
  | cell row col => exact front?_cell hv.1 hv.2 rest
  | assign => rfl
  | comparator c => exact front?_comparator hr.ne_equals
  | comma => rfl
  | string contents => exact front?_string hv rest
  | integer digits =>
      obtain ⟨d, ds, rfl⟩ := List.exists_cons_of_ne_nil hv.1
      rw [spelling, List.cons_append, front?_of_isDigit (ds ++ rest) (hv.2 d List.mem_cons_self),
        ← List.cons_append, takeWhile_run hv.2 hr.not_digit, dropWhile_run hv.2 hr.not_digit]
  | identifier name =>
      have hle := length_name_le_wordFront (name ++ rest)
      rw [List.takeWhile_append_of_pos hv.isWordChar, List.length_append] at hle
      rw [← wordFront_append hp (.inr ⟨name, rfl⟩) hr (Nat.le_of_add_right_le hle)]
      obtain ⟨c, ds, rfl, hc, -⟩ := hv
      exact front?_of_isWordStart (ds ++ rest) hc

/-! ### The longest lexeme -/

/-- What the scanner finds is the longest lexeme. -/
theorem longest_of_front? {cs rest : List Char} {l : Lexeme} (h : front? cs = some (l, rest)) :
    l.Longest cs where
  valid := valid_of_front? h
  front := ⟨rest, front?_eq h⟩
  longest l' hv hp := by
    obtain ⟨l₀, rest₀, h₀, hle⟩ := exists_front?_of_valid hv hp
    rw [h] at h₀
    cases h₀
    exact hle
  proper := proper_of_front? h

/-- A lexeme that is all of a text is found. -/
theorem front?_spelling {l : Lexeme} (hv : l.Valid) (hp : l.Proper) :
    front? l.spelling = some (l, []) := by
  have nothing : Apart [] := by simp [Apart]
  simpa using front?_spelling_append hv hp nothing

/-- Lexemes with the same spelling are equal, once a keyword comes before a name. -/
theorem eq_of_spelling {l l' : Lexeme} (hv : l.Valid) (hp : l.Proper) (hv' : l'.Valid)
    (hp' : l'.Proper) (h : l.spelling = l'.spelling) : l = l' := by
  have hl := front?_spelling hv hp
  rw [h, front?_spelling hv' hp'] at hl
  cases hl
  rfl

/-- The scanner finds a lexeme in all of a text exactly if the text is how it is written. -/
theorem front?_eq_some_nil_iff {l : Lexeme} {cs : List Char} (hv : l.Valid) (hp : l.Proper) :
    front? cs = some (l, []) ↔ l.spelling = cs := by
  constructor
  · intro h
    simpa using front?_eq h
  · rintro rfl
    exact front?_spelling hv hp

/-- The comparisons that the scanner finds are those that are read on their own. -/
theorem front?_eq_comparator_iff {s : String} {c : Comparator} :
    front? s.toList = some (comparator c, []) ↔ Comparator.ofText? s = some c := by
  have hwhole : front? s.toList = some (comparator c, []) ↔ c.text.toList = s.toList :=
    front?_eq_some_nil_iff trivial (proper_comparator c)
  rw [hwhole, String.toList_inj, Comparator.ofText?_eq_some_iff]

/-- The keywords that the scanner finds are those that are read on their own. -/
theorem front?_eq_keyword_iff {s : String} {k : Keyword} :
    front? s.toList = some (keyword k, []) ↔ Keyword.ofText? s = some k := by
  have hwhole : front? s.toList = some (keyword k, []) ↔ k.text.toList = s.toList :=
    front?_eq_some_nil_iff trivial (proper_keyword k)
  rw [hwhole, String.toList_inj, Keyword.ofText?_eq_some_iff]

/-- **The scanner finds the longest lexeme**, and no other. -/
theorem front?_eq_some_iff {l : Lexeme} {rest : List Char} :
    front? (l.spelling ++ rest) = some (l, rest) ↔ l.Longest (l.spelling ++ rest) := by
  constructor
  · exact longest_of_front?
  · intro h
    obtain ⟨l', rest', hf, -⟩ := exists_front?_of_valid h.valid h.front
    have h' := longest_of_front? hf
    -- Both are in front of the text and equally long.
    have hlen : l'.spelling.length = l.spelling.length :=
      Nat.le_antisymm (h.longest l' h'.valid h'.front) (h'.longest l h.valid h.front)
    obtain ⟨hsp, hrest⟩ := List.append_inj (front?_eq hf) hlen
    obtain rfl := eq_of_spelling h'.valid h'.proper h.valid h.proper hsp
    rw [hf, hrest]

/-- No lexeme is found exactly where none of any class is in front. -/
theorem front?_eq_none_iff {cs : List Char} :
    front? cs = none ↔ ∀ l : Lexeme, l.Valid → ¬ l.spelling <+: cs := by
  constructor
  · intro h l hv hp
    obtain ⟨l', rest, hf, -⟩ := exists_front?_of_valid hv hp
    rw [h] at hf
    cases hf
  · intro h
    cases hf : front? cs with
    | none => rfl
    | some found =>
        have hl := @longest_of_front? cs found.2 found.1 hf
        exact absurd hl.front (h _ hl.valid)

end GridLang.Lexeme
