import GridLang.Text.Cut
import GridLang.Token

/-!
# GridLang.Lexeme

**Lexemes**: the pieces of source text that tokens are decoded from.

A lexeme keeps what was written, so that `Lexeme.spelling` gives it back. `Lexeme.front?` finds
the lexeme that some text starts with. Of all the lexemes that could be read there it is the
longest, and of a keyword and a name of equal length it is the keyword; the first character
already tells which other kinds are possible, so that only words need a comparison.

* `front?_eq`: the text is the spelling of its first lexeme followed by the rest.
* `length_lt_of_front?`: the rest is shorter than the text, so that reading on comes to an end.
-/

namespace GridLang

/-- A piece of source text, by its class. -/
inductive Lexeme
  /-- A keyword. -/
  | keyword (k : Keyword)
  /-- Two runs of digits between brackets, separated by a comma. -/
  | cell (row col : List Char)
  /-- The sign `:=`. -/
  | assign
  /-- A comparison sign. -/
  | comparator (c : Comparator)
  /-- The sign `,`. -/
  | comma
  /-- Characters other than the quote, between quotes. Line feeds may be among them. -/
  | string (contents : List Char)
  /-- A run of digits. -/
  | integer (digits : List Char)
  /-- A run of letters, digits and underscores that does not start with a digit. -/
  | identifier (name : List Char)
  deriving Repr, DecidableEq

namespace Lexeme

/-- What a lexeme looks like in the text. -/
def spelling : Lexeme → List Char
  | keyword k => k.text.toList
  | cell row col => '[' :: row ++ ',' :: col ++ [']']
  | assign => [':', '=']
  | comparator c => c.text.toList
  | comma => [',']
  | string contents => '"' :: contents ++ ['"']
  | integer digits => digits
  | identifier name => name

/-- The token that a lexeme stands for; none if a number is out of range. -/
def token? : Lexeme → Option Token
  | keyword k => some (.keyword k)
  | cell row col =>
    match Numeral.readUInt64 row, Numeral.readUInt64 col with
    | .ok row, .ok col => some (.cell ⟨row, col⟩)
    | _, _ => none
  | assign => some .assign
  | comparator c => some (.comparator c)
  | comma => some .comma
  | string contents => some (.string (String.ofList contents))
  | integer digits =>
    match Numeral.readInt64 digits with
    | .ok n => some (.integer n)
    | .error _ => none
  | identifier name => some (.identifier (String.ofList name))

/-- Whether a name can start with a character. -/
def isWordStart (c : Char) : Bool := c.isAlpha || c = '_'

/-- Whether a name can go on with a character. -/
def isWordChar (c : Char) : Bool := c.isAlphanum || c = '_'

/-- The keyword or name at the front of some text, whichever is longer. -/
def wordFront (cs : List Char) : Lexeme × List Char :=
  let name := cs.takeWhile isWordChar
  match Keyword.front? cs with
  | some k =>
    -- Of equal lengths the keyword wins.
    if name.length ≤ k.text.length then (keyword k, cs.drop k.text.length)
    else (identifier name, cs.dropWhile isWordChar)
  | none => (identifier name, cs.dropWhile isWordChar)

/-- The rest of an address behind its opening bracket. -/
def cellFront? (cs : List Char) : Option (Lexeme × List Char) :=
  match cs.takeWhile Char.isDigit, cs.dropWhile Char.isDigit with
  | r :: row, ',' :: cs =>
    match cs.takeWhile Char.isDigit, cs.dropWhile Char.isDigit with
    | c :: col, ']' :: rest => some (cell (r :: row) (c :: col), rest)
    | _, _ => none
  | _, _ => none

/-- The rest of a text operand behind its opening quote. -/
def stringFront? (cs : List Char) : Option (Lexeme × List Char) :=
  (Text.cut '"' cs).map fun (contents, rest) => (string contents, rest)

/-- The lexeme that some text starts with, and the text behind it. -/
def front? : List Char → Option (Lexeme × List Char)
  -- A sign of two characters comes before the sign it starts with.
  | ':' :: '=' :: rest => some (assign, rest)
  | '<' :: '=' :: rest => some (comparator .le, rest)
  | '<' :: rest => some (comparator .lt, rest)
  | '>' :: '=' :: rest => some (comparator .ge, rest)
  | '>' :: rest => some (comparator .gt, rest)
  | '=' :: rest => some (comparator .eq, rest)
  | ',' :: rest => some (comma, rest)
  | '[' :: rest => cellFront? rest
  | '"' :: rest => stringFront? rest
  -- Runs of characters of one kind.
  | c :: rest =>
    if c.isDigit then
      some (integer ((c :: rest).takeWhile Char.isDigit), (c :: rest).dropWhile Char.isDigit)
    else if isWordStart c then some (wordFront (c :: rest))
    else none
  | [] => none

/-! ## A lexeme and the rest make up the text -/

theorem keyword_front?_eq {cs : List Char} {k : Keyword} (h : Keyword.front? cs = some k) :
    k.text.toList ++ cs.drop k.text.length = cs := by
  have h := List.find?_some h
  rw [List.isPrefixOf_iff_prefix] at h
  obtain ⟨rest, rfl⟩ := h
  rw [← String.length_toList, List.drop_left]

theorem wordFront_eq (cs : List Char) :
    (wordFront cs).1.spelling ++ (wordFront cs).2 = cs := by
  unfold wordFront
  split
  next k h =>
    dsimp only
    split
    · exact keyword_front?_eq h
    · exact List.takeWhile_append_dropWhile
  · exact List.takeWhile_append_dropWhile

theorem cellFront?_eq {cs rest : List Char} {l : Lexeme} (h : cellFront? cs = some (l, rest)) :
    l.spelling ++ rest = '[' :: cs := by
  unfold cellFront? at h
  split at h
  next r row cs' hrow hrest =>
    split at h
    next c col rest' hcol hrest' =>
      cases h
      have e := @List.takeWhile_append_dropWhile _ Char.isDigit cs
      have e' := @List.takeWhile_append_dropWhile _ Char.isDigit cs'
      rw [hrow, hrest, ← e', hcol, hrest'] at e
      rw [← e]
      simp [spelling]
    · cases h
  · cases h

theorem stringFront?_eq {cs rest : List Char} {l : Lexeme} (h : stringFront? cs = some (l, rest)) :
    l.spelling ++ rest = '"' :: cs := by
  obtain ⟨⟨contents, rest'⟩, hcut, e⟩ := Option.map_eq_some_iff.1 h
  cases e
  rw [(Text.cut_eq_some_iff.1 hcut).1]
  simp [spelling]

/-- The text is the spelling of its first lexeme, followed by the rest. -/
theorem front?_eq {cs rest : List Char} {l : Lexeme} (h : front? cs = some (l, rest)) :
    l.spelling ++ rest = cs := by
  unfold front? at h
  split at h
  case h_8 => exact cellFront?_eq h
  case h_9 => exact stringFront?_eq h
  case h_10 =>
    split at h
    · cases h
      exact List.takeWhile_append_dropWhile
    · split at h
      · exact (congrArg (fun p => p.1.spelling ++ p.2) (Option.some.inj h)).symm.trans
          (wordFront_eq _)
      · cases h
  all_goals cases h
  all_goals rfl

theorem isWordChar_of_isWordStart {c : Char} (h : isWordStart c = true) : isWordChar c = true := by
  simp only [isWordStart, isWordChar, Char.isAlphanum, Bool.or_eq_true] at h ⊢
  exact h.imp_left Or.inl

theorem spelling_wordFront_ne_nil {c : Char} {cs : List Char} (h : isWordStart c = true) :
    (wordFront (c :: cs)).1.spelling ≠ [] := by
  have name : (c :: cs).takeWhile isWordChar ≠ [] := by
    simp [isWordChar_of_isWordStart h]
  unfold wordFront
  split
  next k _ =>
    dsimp only
    split
    · exact Keyword.text_toList_ne_nil k
    · exact name
  · exact name

/-- The spelling of the first lexeme of a text is not empty. -/
theorem spelling_ne_nil_of_front? {cs rest : List Char} {l : Lexeme}
    (h : front? cs = some (l, rest)) : l.spelling ≠ [] := by
  unfold front? at h
  split at h
  case h_8 =>
    unfold cellFront? at h
    split at h
    · split at h
      · cases h; simp [spelling]
      · cases h
    · cases h
  case h_9 =>
    obtain ⟨_, -, e⟩ := Option.map_eq_some_iff.1 h
    cases e
    simp [spelling]
  case h_10 =>
    split at h
    next digit => cases h; simp [spelling, digit]
    · split at h
      next word =>
        rw [show l = _ from (congrArg Prod.fst (Option.some.inj h)).symm]
        exact spelling_wordFront_ne_nil word
      · cases h
  all_goals cases h
  all_goals simp [spelling, Comparator.text]

/-- The rest behind the first lexeme is shorter than the text. -/
theorem length_lt_of_front? {cs rest : List Char} {l : Lexeme}
    (h : front? cs = some (l, rest)) : rest.length < cs.length := by
  rw [← front?_eq h, List.length_append]
  have := List.length_pos_iff.2 (spelling_ne_nil_of_front? h)
  omega

end Lexeme

end GridLang
