import GridLang.Address
import GridLang.Comparator

/-!
# GridLang.Program

**Programs**: a name and a body of instructions. An instruction writes a value to a fixed place of
the grid, or calls another program, always or if a comparison holds.

Each type comes with its text form, which is what the reader of source text accepts. A text
operand stands between double quotes as it is, without escapes.
-/

namespace GridLang

/-- A value as an instruction names it. -/
inductive Operand
  /-- A number. -/
  | number (n : Int64)
  /-- A text. -/
  | text (s : String)
  /-- Whatever the place holds when the instruction is executed. -/
  | cell (a : Address)
  deriving Repr, DecidableEq

/-- A condition on two values, which have to be numbers. -/
structure Condition where
  /-- The value on the left. -/
  left : Operand
  /-- The comparison to make. -/
  comparator : Comparator
  /-- The value on the right. -/
  right : Operand
  deriving Repr, DecidableEq

/-- One step of a program. -/
inductive Instruction
  /-- Sets a place to a value. -/
  | write (a : Address) (value : Operand)
  /-- Runs another program, then goes on with the next instruction. -/
  | call (target : String)
  /-- Does the same, but only if the condition holds. -/
  | callIf (condition : Condition) (target : String)
  deriving Repr, DecidableEq

/-- A named body of instructions. -/
structure Program where
  /-- The name by which the program is called. -/
  name : String
  /-- The instructions, in order of execution. -/
  body : Array Instruction
  deriving Repr, DecidableEq

/-- The text form of an operand. -/
def Operand.source : Operand → String
  | number n => Numeral.ofInt64 n
  | text s => "\"" ++ s ++ "\""
  | cell a => a.text

/-- The text form of a condition. -/
def Condition.source (c : Condition) : String :=
  c.left.source ++ " " ++ c.comparator.text ++ " " ++ c.right.source

/-- The program that an instruction may call. -/
def Instruction.target? : Instruction → Option String
  | write _ _ => none
  | call target => some target
  | callIf _ target => some target

/-- The text form of an instruction. -/
def Instruction.source : Instruction → String
  | write a value => "write " ++ a.text ++ " := " ++ value.source
  | call target => "call " ++ target
  | callIf condition target => "call-if " ++ condition.source ++ ", " ++ target

/-- The text form of a program: its instructions indented between two lines of their own, the
last of which is not ended. -/
def Program.source (p : Program) : String :=
  "program " ++ p.name ++ "\n" ++
    String.join (p.body.toList.map fun i => "    " ++ i.source ++ "\n") ++ "program-end"

end GridLang
