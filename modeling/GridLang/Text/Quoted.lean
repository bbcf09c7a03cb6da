import GridLang.Text.Unprintable

/-!
# GridLang.Text.Quoted

**Quoted text**, the form in which messages show a text of any content: between double quotes,
with a backslash in front of a quote and of a backslash, the escapes `\n`, `\r`, `\t` and `\0`,
and the code point in hexadecimal for every other character that is not printable.
-/

namespace GridLang.Text

/-- How one character is shown between the quotes. -/
def escapeChar (c : Char) : List Char :=
  match c with
  | '"' => ['\\', '"']
  | '\\' => ['\\', '\\']
  | '\n' => ['\\', 'n']
  | '\r' => ['\\', 'r']
  | '\t' => ['\\', 't']
  | '\x00' => ['\\', '0']
  | c =>
    if isPrintable c then [c]
    else "\\u\x7b".toList ++ Nat.toDigits 16 c.toNat ++ ['\x7d']

/-- A text in quotes. -/
def quote (s : String) : String :=
  String.ofList ('"' :: s.toList.flatMap escapeChar ++ ['"'])

end GridLang.Text
