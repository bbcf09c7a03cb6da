/-!
# GridLang.Text.Lines

**Lines and fields** of plain text: lines that are each ended by a line feed, and texts filled up
with blanks to a width in characters.
-/

namespace GridLang.Text

/-- Lines, each of them ended. -/
def unlines (lines : List String) : String := String.join (lines.map (· ++ "\n"))

/-- A text with blanks in front of it up to a width in characters. -/
def alignRight (width : Nat) (s : String) : String :=
  String.ofList (List.replicate (width - s.length) ' ' ++ s.toList)

/-- A text with blanks behind it up to a width in characters. -/
def alignLeft (width : Nat) (s : String) : String :=
  String.ofList (s.toList ++ List.replicate (width - s.length) ' ')

end GridLang.Text
