import GridLang.Script
import GridLang.Source

/-!
# GridLang.Script.Reader

**Reading a script from tokens**, one token at a time and without looking back.

A script is written as a sequence of definitions:

```text
script      := definition*
definition  := program NAME instruction* program-end
instruction := write ADDRESS := value
             | call NAME
             | call-if value COMPARISON value , NAME
value       := ADDRESS | NUMBER | TEXT | NAME
```

A name in the place of a value is a text; nothing looks it up. Targets of calls are not looked up
either, so a program may call one that is defined later, or never.

Design points:

* What has been read so far is a `Reader`: the definitions that are complete and, inside one, what
  is known of it and what has to come next (`Expected`).
* `Reader.feed` takes one token, `Reader.finish` the end of the text. Whether a text is read, and
  where it fails, is told by the token at hand and the state, so the reader of a longer text is in
  the same state after the same tokens.
* A token that does not fit is an error at its place. The end of the text in the wrong state is an
  error without a place.
* A name that is taken is noticed when its definition is complete, at the place of the name.
-/

namespace GridLang

/-- The value that a token stands for. -/
def Operand.ofToken? : Token → Option Operand
  | .cell a => some (cell a)
  | .integer n => some (number n)
  | .string s => some (text s)
  | .identifier name => some (text name)
  | .keyword _ | .assign | .comparator _ | .comma => none

/-- What has to come next inside a definition. -/
inductive Expected
  /-- An instruction, or the end of the definition. -/
  | instruction
  /-- The address of a `write`. -/
  | address
  /-- The `:=` behind the address. -/
  | assign (a : Address)
  /-- The value to write. -/
  | value (a : Address)
  /-- The left operand of a condition. -/
  | leftOperand
  /-- The comparison sign behind the left operand. -/
  | comparator (left : Operand)
  /-- The right operand. -/
  | rightOperand (left : Operand) (comparator : Comparator)
  /-- The comma behind a condition. -/
  | comma (condition : Condition)
  /-- The target of a call, which may have a condition. -/
  | target (condition? : Option Condition)
  deriving Repr, DecidableEq

namespace Expected

/-- The keyword that the target of a call belongs to. -/
def callKeyword (condition? : Option Condition) : Keyword :=
  match condition? with
  | none => .call
  | some _ => .callIf

/-- The call of a target. -/
def callOf (condition? : Option Condition) (target : String) : Instruction :=
  match condition? with
  | none => .call target
  | some condition => .callIf condition target

/-- What is wrong if the text ends here. -/
def missing : Expected → SyntaxError.Cause
  | instruction => .unterminated
  | address => .missingAddress
  | assign _ => .missingAssign
  | value _ => .missingValue
  | leftOperand => .missingLeftOperand
  | comparator _ => .missingComparator
  | rightOperand _ c => .missingRightOperand c
  | comma _ => .missingComma
  | target condition? => .missingTarget (callKeyword condition?)

/-- What a fitting token leads to. -/
inductive Progress
  /-- The instruction goes on. -/
  | goOn (expected : Expected)
  /-- The instruction is complete. -/
  | instruction (i : Instruction)
  /-- The definition is complete. -/
  | programEnd
  deriving Repr, DecidableEq

/-- Takes the next token of a definition. -/
def take (expected : Expected) (token : Token) : Except SyntaxError.Cause Progress :=
  match expected with
  | instruction =>
    match token with
    | .keyword .programEnd => .ok .programEnd
    | .keyword .write => .ok (.goOn address)
    | .keyword .call => .ok (.goOn (target none))
    | .keyword .callIf => .ok (.goOn leftOperand)
    | other => .error (.unknownInstruction other.text)
  | address =>
    match token with
    | .cell a => .ok (.goOn (assign a))
    | other => .error (.invalidAddress other.text)
  | assign a =>
    match token with
    | .assign => .ok (.goOn (value a))
    | other => .error (.expectedAssign other.text)
  | value a =>
    match Operand.ofToken? token with
    | some operand => .ok (.instruction (.write a operand))
    | none => .error (.invalidValue token.text)
  | leftOperand =>
    match Operand.ofToken? token with
    | some left => .ok (.goOn (comparator left))
    | none => .error (.invalidOperand token.text)
  | comparator left =>
    match token with
    | .comparator c => .ok (.goOn (rightOperand left c))
    | other => .error (.invalidComparator other.text)
  | rightOperand left c =>
    match Operand.ofToken? token with
    | some right => .ok (.goOn (comma ⟨left, c, right⟩))
    | none => .error (.invalidOperand token.text)
  | comma condition =>
    match token with
    | .comma => .ok (.goOn (target (some condition)))
    | other => .error (.expectedComma other.text)
  | target condition? =>
    match token with
    | .identifier name => .ok (.instruction (callOf condition? name))
    | other => .error (.invalidTarget other.text)

end Expected

/-- A definition that is being read. -/
structure Draft where
  /-- Its name. -/
  name : String
  /-- The place of its name. -/
  position : Position
  /-- The instructions read so far. -/
  body : Array Instruction
  /-- What has to come next. -/
  expected : Expected
  deriving Repr, DecidableEq

/-- What has been read so far. -/
inductive Reader
  /-- Complete definitions, with nothing behind them. -/
  | between (script : Script)
  /-- Complete definitions, and the keyword that opens another one. -/
  | opened (script : Script)
  /-- Complete definitions, and the first part of another one. -/
  | inside (script : Script) (draft : Draft)
  deriving DecidableEq

namespace Reader

/-- The reader to which no token has been given. -/
def start : Reader := between ∅

/-- Takes the next token. -/
def feed (reader : Reader) (t : LocatedToken) : Except SyntaxError Reader :=
  match reader with
  | between script =>
    match t.token with
    | .keyword .program => .ok (opened script)
    | other => .error ⟨.expectedProgram other.text, none, some t.position⟩
  | opened script =>
    match t.token with
    | .identifier name => .ok (inside script ⟨name, t.position, #[], .instruction⟩)
    | .keyword .programEnd => .error ⟨.missingProgramName, none, some t.position⟩
    | other => .error ⟨.invalidProgramName other.text, none, some t.position⟩
  | inside script draft =>
    match draft.expected.take t.token with
    | .error cause => .error ⟨cause, some draft.name, some t.position⟩
    | .ok (.goOn expected) => .ok (inside script { draft with expected })
    | .ok (.instruction i) =>
      .ok (inside script { draft with body := draft.body.push i, expected := .instruction })
    | .ok .programEnd =>
      -- Only now can the name turn out to be taken.
      match script.insert ⟨draft.name, draft.body⟩ with
      | .ok script => .ok (between script)
      | .error _ => .error ⟨.duplicateProgram draft.name, some draft.name, some draft.position⟩

/-- Takes tokens in turn, up to the first that does not fit. -/
def feedAll (reader : Reader) (ts : List LocatedToken) : Except SyntaxError Reader :=
  ts.foldlM feed reader

/-- Takes the end of the text. -/
def finish : Reader → Except SyntaxError Script
  | between script => .ok script
  | opened _ => .error ⟨.missingProgramName, none, none⟩
  | inside _ draft => .error ⟨draft.expected.missing, some draft.name, none⟩

@[simp] theorem feedAll_nil (reader : Reader) : reader.feedAll [] = .ok reader := rfl

@[simp] theorem feedAll_cons (reader : Reader) (t : LocatedToken) (ts : List LocatedToken) :
    reader.feedAll (t :: ts) = (reader.feed t).bind (·.feedAll ts) := rfl

theorem feedAll_append (reader : Reader) (ts us : List LocatedToken) :
    reader.feedAll (ts ++ us) = (reader.feedAll ts).bind (·.feedAll us) := by
  simp [feedAll, List.foldlM_append]
  rfl

end Reader

namespace Script

/-- The script that tokens define. -/
def ofTokens (ts : List LocatedToken) : Except SyntaxError Script :=
  (Reader.start.feedAll ts).bind Reader.finish

/-- The script that a source text defines. An error in a lexeme comes before any other. -/
def read (source : String) : Except SyntaxError Script :=
  (Source.tokens source).bind ofTokens

end Script

end GridLang
