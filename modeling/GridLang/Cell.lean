import GridLang.Text.Blank
import GridLang.Text.Numeral

/-!
# GridLang.Cell

**The contents of one place of the grid**: a number or a text. A place that was never set reads
as the number 0, which is the default cell.

`Cell.ofTyped` is how text typed by a person becomes a cell; `Cell.shown` is how a cell is shown.
-/

namespace GridLang

/-- A number or a text. -/
inductive Cell
  /-- A signed 64-bit number. -/
  | number (n : Int64)
  /-- A text of any content, also one that looks like a number. -/
  | text (s : String)
  deriving Repr, DecidableEq

namespace Cell

instance : Inhabited Cell := ⟨number 0⟩

/-- The number in a cell, if it holds one. -/
def number? : Cell → Option Int64
  | number n => some n
  | text _ => none

/-- The name of the kind of contents. -/
def kindName : Cell → String
  | number _ => "number"
  | text _ => "string"

/-- The contents as they are shown: the numeral of a number, a text as it is. -/
def shown : Cell → String
  | number n => Numeral.ofInt64 n
  | text s => s

/-- The cell that typed text stands for: blank text is 0, a numeral its number, and anything else
the text without the blanks around it. -/
def ofTyped (typed : String) : Cell :=
  let s := Text.trim typed
  if s.isEmpty then number 0
  else
    match Numeral.readInt64 s.toList with
    | .ok n => number n
    | .error _ => text s

@[simp] theorem default_eq : (default : Cell) = number 0 := rfl

@[simp] theorem number?_number (n : Int64) : (number n).number? = some n := rfl

@[simp] theorem number?_text (s : String) : (text s).number? = none := rfl

end Cell

end GridLang
