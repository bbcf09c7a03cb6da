import GridLang.Text.Quoted

/-!
# GridLang.Comparator

**The comparisons of numbers** that a conditional call can make, and how they are written.

`Comparator.ofText?` reads a comparison that is given on its own, to someone who puts a condition
together without source text; `Comparator.invalidMessage` is the answer to any other text. The
reader of source text needs neither, since it finds comparisons among other lexemes
(`Lexeme.front?`). Both read the same texts (`Lexeme.front?_eq_comparator_iff`).
-/

namespace GridLang

/-- A comparison of two numbers. -/
inductive Comparator
  /-- Equal, written `=`. -/
  | eq
  /-- Less than, written `<`. -/
  | lt
  /-- At most, written `<=`. -/
  | le
  /-- Greater than, written `>`. -/
  | gt
  /-- At least, written `>=`. -/
  | ge
  deriving Repr, DecidableEq

namespace Comparator

/-- Every comparison. -/
def all : List Comparator := [eq, lt, le, gt, ge]

/-- Whether a comparison holds of two numbers. -/
def holds : Comparator → Int64 → Int64 → Bool
  | eq, left, right => left == right
  | lt, left, right => left < right
  | le, left, right => left ≤ right
  | gt, left, right => right < left
  | ge, left, right => right ≤ left

/-- How a comparison is written. -/
def text : Comparator → String
  | eq => "="
  | lt => "<"
  | le => "<="
  | gt => ">"
  | ge => ">="

/-- The comparison that is written as a text. -/
def ofText? (s : String) : Option Comparator := all.find? (·.text = s)

/-- What is said about a text that is no comparison. -/
def invalidMessage (s : String) : String := "invalid comparator " ++ Text.quote s

/-- The texts that are read are those that are written. -/
theorem ofText?_eq_some_iff {s : String} {c : Comparator} : ofText? s = some c ↔ c.text = s := by
  constructor
  · intro h
    simpa using List.find?_some h
  · rintro rfl
    cases c <;> decide

end Comparator

end GridLang
