import GridLang.Grid
import GridLang.Text.Cut
import GridLang.Text.Quoted

/-!
# GridLang.CommandLine.Seed

**Cells of the first grid**, as they are given on the command line: `ROW,COL=VALUE`.

The first `=` ends the address, and the first `,` in front of it ends the row, so a value may
contain both. Blanks around the row and around the column do not count; the value is taken like
any typed text.
-/

namespace GridLang.CommandLine

/-- What can be wrong with a cell that is given. -/
inductive SeedFault
  /-- There is no `=`. -/
  | noValue (given : String)
  /-- There is no `,` in front of the `=`. -/
  | noColumn (address : String)
  /-- The row is no numeral. -/
  | invalidRow (row : String) (fault : NumeralFault)
  /-- The column is no numeral. -/
  | invalidColumn (column : String) (fault : NumeralFault)
  deriving Repr, DecidableEq

/-- The wording of a fault. -/
def SeedFault.message : SeedFault → String
  | noValue given => "expected ROW,COL=VALUE, got " ++ Text.quote given
  | noColumn address => "expected ROW,COL before '=', got " ++ Text.quote address
  | invalidRow row fault => "invalid row " ++ Text.quote row ++ ": " ++ fault.message
  | invalidColumn column fault => "invalid column " ++ Text.quote column ++ ": " ++ fault.message

/-- The place and the cell that a text gives. -/
def readSeed (given : String) : Except SeedFault (Address × Cell) :=
  match Text.cut '=' given.toList with
  | none => .error (.noValue given)
  | some (address, value) =>
    match Text.cut ',' address with
    | none => .error (.noColumn (String.ofList address))
    | some (row, col) =>
      let row := String.ofList row
      let col := String.ofList col
      match Numeral.readUInt64 (Text.trim row).toList with
      | .error fault => .error (.invalidRow row fault)
      | .ok rowNumber =>
        match Numeral.readUInt64 (Text.trim col).toList with
        | .error fault => .error (.invalidColumn col fault)
        | .ok colNumber => .ok (⟨rowNumber, colNumber⟩, Cell.ofTyped (String.ofList value))

end GridLang.CommandLine
