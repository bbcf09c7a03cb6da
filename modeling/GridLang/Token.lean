import GridLang.Program

/-!
# GridLang.Token

**Tokens** of source text and the places where they stand.

A token is the decoded form of a lexeme: a number token holds the number and not its digits. Its
`text` is the plainest lexeme for it. Positions count lines and characters within a line from 1.

`Keyword.ofText?` reads a keyword that is given on its own, to someone who puts tokens together
without source text. The reader of source text finds keywords among other lexemes by
`Keyword.front?`. Both read the same texts (`Lexeme.front?_eq_keyword_iff`).
-/

namespace GridLang

/-- The words with a meaning of their own. -/
inductive Keyword
  /-- Opens a definition. -/
  | program
  /-- Closes a definition. -/
  | programEnd
  /-- Starts an assignment to a place of the grid. -/
  | write
  /-- Starts a call. -/
  | call
  /-- Starts a conditional call. -/
  | callIf
  deriving Repr, DecidableEq

namespace Keyword

/-- How a keyword is written. -/
def text : Keyword → String
  | program => "program"
  | programEnd => "program-end"
  | write => "write"
  | call => "call"
  | callIf => "call-if"

/-- Every keyword. A keyword that another one starts with comes after that one. -/
def all : List Keyword := [programEnd, program, callIf, call, write]

/-- The longest keyword that some text starts with. -/
def front? (cs : List Char) : Option Keyword := all.find? fun k => k.text.toList.isPrefixOf cs

/-- The keyword that is written as a text. -/
def ofText? (s : String) : Option Keyword := all.find? (·.text = s)

/-- The texts that are read are those that are written. -/
theorem ofText?_eq_some_iff {s : String} {k : Keyword} : ofText? s = some k ↔ k.text = s := by
  constructor
  · intro h
    simpa using List.find?_some h
  · rintro rfl
    cases k <;> decide

theorem text_toList_ne_nil (k : Keyword) : k.text.toList ≠ [] := by cases k <;> decide

end Keyword

/-- The smallest unit of meaning of source text. -/
inductive Token
  /-- A keyword. -/
  | keyword (k : Keyword)
  /-- A place of the grid. -/
  | cell (a : Address)
  /-- The sign `:=`. -/
  | assign
  /-- A comparison sign. -/
  | comparator (c : Comparator)
  /-- The sign `,`. -/
  | comma
  /-- A text between quotes; the quotes are not part of it. -/
  | string (contents : String)
  /-- A number. -/
  | integer (n : Int64)
  /-- A name. -/
  | identifier (name : String)
  deriving Repr, DecidableEq

/-- How a token is written. -/
def Token.text : Token → String
  | keyword k => k.text
  | cell a => a.text
  | assign => ":="
  | comparator c => c.text
  | comma => ","
  | string contents => "\"" ++ contents ++ "\""
  | integer n => Numeral.ofInt64 n
  | identifier name => name

/-- A place in a text. -/
structure Position where
  /-- The line, counted from 1. -/
  line : Nat
  /-- The character within the line, counted from 1. -/
  column : Nat
  deriving Repr, DecidableEq

namespace Position

/-- The place of the first character. -/
def start : Position := ⟨1, 1⟩

/-- The place behind one character. A line feed ends the line; every other character, a tab too,
takes one column. -/
def next (p : Position) (c : Char) : Position :=
  if c = '\n' then ⟨p.line + 1, 1⟩ else ⟨p.line, p.column + 1⟩

/-- The place behind some text. -/
def after (p : Position) (cs : List Char) : Position := cs.foldl next p

@[simp] theorem after_nil (p : Position) : p.after [] = p := rfl

@[simp] theorem after_cons (p : Position) (c : Char) (cs : List Char) :
    p.after (c :: cs) = (p.next c).after cs := rfl

@[simp] theorem after_append (p : Position) (cs ds : List Char) :
    p.after (cs ++ ds) = (p.after cs).after ds := by simp [after]

end Position

/-- A token and the place of its first character. -/
structure LocatedToken where
  /-- The token. -/
  token : Token
  /-- Where its lexeme starts. -/
  position : Position
  deriving Repr, DecidableEq

end GridLang
