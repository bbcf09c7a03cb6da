import GridLang.Lexeme
import GridLang.SyntaxError

/-!
# GridLang.Source

**Source text** and the tokens in it.

Comments go first: on each line, everything from the first `;` on is dropped, also where the `;`
stands between quotes. What is left is read from left to right: white space is skipped, and
anything else has to start with a lexeme. Line feeds are never dropped, and a comment is the tail
of its line, so the positions found in the remaining text hold in the full text too.

White space is the six ASCII characters space, tab, line feed, vertical tab, form feed and
carriage return; every other blank character is an error outside quotes.
-/

namespace GridLang.Source

/-- Copies some text up to the next comment, or skips to the end of the line if inside one. -/
def copyOutsideComment : Bool → List Char → List Char
  | _, [] => []
  | inside, c :: cs =>
    if c = '\n' then c :: copyOutsideComment false cs
    else if inside || c = ';' then copyOutsideComment true cs
    else c :: copyOutsideComment false cs

/-- Some text without its comments. -/
def withoutComments (cs : List Char) : List Char := copyOutsideComment false cs

/-- Whether a character is white space between tokens. -/
def isSpace (c : Char) : Bool :=
  c = ' ' || c = '\t' || c = '\n' || c = '\x0b' || c = '\x0c' || c = '\r'

/-- The cause of an error at a character that no lexeme starts with. -/
def noLexeme (c : Char) : SyntaxError.Cause :=
  if c = '"' then .unterminatedString else .unrecognizedInput (String.singleton c)

/-- The tokens of some text without comments whose first character stands at `p`. -/
def tokensFrom (p : Position) : List Char → Except SyntaxError (List LocatedToken)
  | [] => .ok []
  | c :: cs =>
    if isSpace c then tokensFrom (p.next c) cs
    else
      match _h : Lexeme.front? (c :: cs) with
      | none => .error ⟨noLexeme c, none, some p⟩
      | some (lexeme, rest) =>
        match lexeme.token? with
        | none => .error ⟨.numberOutOfRange (String.ofList lexeme.spelling), none, some p⟩
        | some token =>
          (tokensFrom (p.after lexeme.spelling) rest).map (⟨token, p⟩ :: ·)
termination_by cs => cs.length
decreasing_by
  · simp
  · exact Lexeme.length_lt_of_front? _h

/-! ## The cases of reading on -/

@[simp] theorem tokensFrom_nil (p : Position) : tokensFrom p [] = .ok [] := by
  rw [tokensFrom]

theorem tokensFrom_of_isSpace {p : Position} {c : Char} {cs : List Char} (h : isSpace c = true) :
    tokensFrom p (c :: cs) = tokensFrom (p.next c) cs := by
  rw [tokensFrom, if_pos h]

theorem tokensFrom_of_front?_eq_none {p : Position} {c : Char} {cs : List Char}
    (h : isSpace c = false) (hf : Lexeme.front? (c :: cs) = none) :
    tokensFrom p (c :: cs) = .error ⟨noLexeme c, none, some p⟩ := by
  rw [tokensFrom, if_neg (by simp [h])]
  split
  · rfl
  next e => rw [hf] at e; cases e

theorem tokensFrom_of_token? {p : Position} {c : Char} {cs rest : List Char} {l : Lexeme}
    {t : Token} (h : isSpace c = false) (hf : Lexeme.front? (c :: cs) = some (l, rest))
    (ht : l.token? = some t) :
    tokensFrom p (c :: cs) = (tokensFrom (p.after l.spelling) rest).map (⟨t, p⟩ :: ·) := by
  rw [tokensFrom, if_neg (by simp [h])]
  split
  next e => rw [hf] at e; cases e
  next e =>
    rw [hf] at e
    cases e
    rw [ht]

theorem tokensFrom_of_token?_eq_none {p : Position} {c : Char} {cs rest : List Char} {l : Lexeme}
    (h : isSpace c = false) (hf : Lexeme.front? (c :: cs) = some (l, rest))
    (ht : l.token? = none) :
    tokensFrom p (c :: cs) =
      .error ⟨.numberOutOfRange (String.ofList l.spelling), none, some p⟩ := by
  rw [tokensFrom, if_neg (by simp [h])]
  split
  next e => rw [hf] at e; cases e
  next e =>
    rw [hf] at e
    cases e
    rw [ht]

/-! ## Whole texts -/

/-- The tokens of a source text, or the first place where there is none. -/
def tokens (source : String) : Except SyntaxError (List LocatedToken) :=
  tokensFrom .start (withoutComments source.toList)

end GridLang.Source
