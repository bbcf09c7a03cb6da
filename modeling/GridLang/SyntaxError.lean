import GridLang.Token

/-!
# GridLang.SyntaxError

**What can be wrong with source text**, and what is said about it.

An error has a cause, the name of the definition it occurs in, and the place of the offending
lexeme. An error without a place means that the text stopped too early. Such an error, and a text
operand whose closing quote is missing, call the source *incomplete*: more text could mend it.
-/

namespace GridLang

namespace SyntaxError

/-- The causes of syntax errors. A text that a cause carries is the offending lexeme. -/
inductive Cause
  /-- No lexeme starts with this character. -/
  | unrecognizedInput (found : String)
  /-- A quote is never closed. -/
  | unterminatedString
  /-- A number has too large a value. -/
  | numberOutOfRange (found : String)
  /-- A definition starts with something else than its keyword. -/
  | expectedProgram (found : String)
  /-- A definition has no name. -/
  | missingProgramName
  /-- The name of a definition is no name. -/
  | invalidProgramName (found : String)
  /-- The name of a definition is taken. -/
  | duplicateProgram (name : String)
  /-- No instruction starts like this. -/
  | unknownInstruction (found : String)
  /-- A `write` has no address. -/
  | missingAddress
  /-- The address of a `write` is no address. -/
  | invalidAddress (found : String)
  /-- A `write` has no `:=`. -/
  | missingAssign
  /-- Something else stands in the place of `:=`. -/
  | expectedAssign (found : String)
  /-- A `write` has no value. -/
  | missingValue
  /-- The value of a `write` is no value. -/
  | invalidValue (found : String)
  /-- A condition has no left operand. -/
  | missingLeftOperand
  /-- A condition has nothing behind its comparison sign. -/
  | missingRightOperand (comparator : Comparator)
  /-- An operand of a condition is no value. -/
  | invalidOperand (found : String)
  /-- A condition has no comparison sign. -/
  | missingComparator
  /-- Something else stands in the place of the comparison sign. -/
  | invalidComparator (found : String)
  /-- Nothing separates a condition from its target. -/
  | missingComma
  /-- Something else stands in the place of the comma. -/
  | expectedComma (found : String)
  /-- A call has no target. -/
  | missingTarget (keyword : Keyword)
  /-- The target of a call is no name. -/
  | invalidTarget (found : String)
  /-- A definition is never closed. -/
  | unterminated
  deriving Repr, DecidableEq

/-- The wording of a cause. -/
def Cause.message : Cause → String
  | unrecognizedInput s => "unrecognized input '" ++ s ++ "'"
  | unterminatedString => "string literal is missing its closing '\"'"
  | numberOutOfRange s => "number '" ++ s ++ "' is out of range"
  | expectedProgram s =>
    "expected 'program' at the start of a program definition, found '" ++ s ++ "'"
  | missingProgramName => "program name is missing after 'program'"
  | invalidProgramName s => "'" ++ s ++ "' is not a valid program name"
  | duplicateProgram s => "program '" ++ s ++ "' is already defined"
  | unknownInstruction s => "unknown instruction '" ++ s ++ "'"
  | missingAddress => "address is missing after 'write'"
  | invalidAddress s => "invalid address '" ++ s ++ "'; expected the form [row,column]"
  | missingAssign => "expected ':=' after the address, found end of input"
  | expectedAssign s => "expected ':=' after the address, found '" ++ s ++ "'"
  | missingValue => "value is missing after ':='"
  | invalidValue s => "'" ++ s ++ "' is not a value"
  | missingLeftOperand => "left operand is missing after 'call-if'"
  | missingRightOperand c => "right operand is missing after '" ++ c.text ++ "'"
  | invalidOperand s => "'" ++ s ++ "' is not a valid operand"
  | missingComparator => "comparison operator is missing; allowed: =, <, <=, >, >="
  | invalidComparator s =>
    "invalid comparison operator '" ++ s ++ "'; allowed: =, <, <=, >, >="
  | missingComma => "comma is missing after the condition"
  | expectedComma s => "comma is missing after the condition, found '" ++ s ++ "'"
  | missingTarget .callIf => "target program is missing after ','"
  | missingTarget k => "target program is missing after '" ++ k.text ++ "'"
  | invalidTarget s => "'" ++ s ++ "' is not a valid target program"
  | unterminated => "'program-end' is missing at the end of the definition"

/-- The offending lexeme of a cause, or the name that is taken. -/
def Cause.lexeme? : Cause → Option String
  | unrecognizedInput s | numberOutOfRange s | expectedProgram s | invalidProgramName s
  | duplicateProgram s | unknownInstruction s | invalidAddress s | expectedAssign s
  | invalidValue s | invalidOperand s | invalidComparator s | expectedComma s
  | invalidTarget s => some s
  | unterminatedString | missingProgramName | missingAddress | missingAssign | missingValue
  | missingLeftOperand | missingRightOperand _ | missingComparator | missingComma
  | missingTarget _ | unterminated => none

end SyntaxError

/-- An error of source text. -/
structure SyntaxError where
  /-- What is wrong. -/
  cause : SyntaxError.Cause
  /-- The definition being read, once it has a name. -/
  program? : Option String
  /-- The place of the offending lexeme; none if the text stopped too early. -/
  position? : Option Position
  deriving Repr, DecidableEq

namespace SyntaxError

/-- Whether more text could mend the error. -/
def isIncomplete (e : SyntaxError) : Bool :=
  e.position?.isNone || e.cause = .unterminatedString

/-- The wording of an error. -/
def message (e : SyntaxError) : String :=
  let place := match e.position? with
    | some p => "line " ++ Numeral.ofNat p.line ++ " column " ++ Numeral.ofNat p.column
    | none => "end of input"
  let definition := match e.program? with
    | some name => " in '" ++ name ++ "'"
    | none => ""
  "syntax error at " ++ place ++ definition ++ ": " ++ e.cause.message

end SyntaxError

end GridLang
