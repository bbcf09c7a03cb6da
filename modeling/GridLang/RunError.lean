import GridLang.Cell
import GridLang.Comparator
import GridLang.Text.Quoted

/-!
# GridLang.RunError

**What can go wrong while a program runs**, and what is said about it.
-/

namespace GridLang

/-- The reasons for which a run stops before its end. -/
inductive RunError
  /-- The program to start with is not defined. -/
  | undefinedStart (name : String)
  /-- A program that is called is not defined. -/
  | undefinedTarget (caller target : String)
  /-- A call would open more calls than allowed. -/
  | depthExceeded (caller : String) (limit : Nat)
  /-- A comparison met something that is no number. -/
  | notANumber (program : String) (left : Cell) (comparator : Comparator) (right : Cell)
  /-- The number of instructions to execute is used up. -/
  | stepLimitExceeded (program : String) (limit : Nat)
  deriving Repr, DecidableEq

namespace RunError

/-- A cell as a message shows it: texts are quoted, and the kind follows in parentheses. -/
def describe (c : Cell) : String :=
  let contents := match c with
    | .number n => Numeral.ofInt64 n
    | .text s => Text.quote s
  contents ++ " (" ++ c.kindName ++ ")"

/-- The wording of an error. -/
def message : RunError → String
  | undefinedStart name => "start program '" ++ name ++ "' does not exist"
  | undefinedTarget caller target =>
    "error in '" ++ caller ++ "': program '" ++ target ++ "' does not exist"
  | depthExceeded caller limit =>
    "error in '" ++ caller ++ "': maximum call depth (" ++ Numeral.ofNat limit ++
      ") exceeded; endless recursion?"
  | notANumber program left comparator right =>
    "error in '" ++ program ++ "': comparisons need numbers; found " ++ describe left ++ " " ++
      comparator.text ++ " " ++ describe right
  | stepLimitExceeded program limit =>
    "error in '" ++ program ++ "': stopped after " ++ Numeral.ofNat limit ++ " instructions"

end RunError

end GridLang
