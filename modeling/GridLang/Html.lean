/-!
# GridLang.Html

**HTML as a tree.** Tags and attribute names are written as they are; texts and attribute values
are escaped wherever they stand, so what they contain can never open or close anything. Escaping
replaces the four characters `&`, `<`, `>` and `"`, and no others.
-/

namespace GridLang

/-- A piece of a page. -/
inductive Html
  /-- Text between tags. -/
  | text (s : String)
  /-- A pair of tags with contents between them. -/
  | element (tag : String) (attributes : List (String × String)) (contents : List Html)
  /-- A tag without contents, which is not closed. -/
  | void (tag : String) (attributes : List (String × String))
  deriving Repr

namespace Html

/-- How a character is written in a text or a value. -/
def escapeChar : Char → List Char
  | '&' => "&amp;".toList
  | '<' => "&lt;".toList
  | '>' => "&gt;".toList
  | '"' => "&quot;".toList
  | c => [c]

/-- How a text or a value is written. -/
def escape (s : String) : String := String.ofList (s.toList.flatMap escapeChar)

/-- Attributes, each with a blank in front. -/
def renderAttributes (attributes : List (String × String)) : String :=
  String.join (attributes.map fun (name, value) => " " ++ name ++ "=\"" ++ escape value ++ "\"")

mutual

/-- The written form of a piece. -/
def render : Html → String
  | text s => escape s
  | element tag attributes contents =>
    "<" ++ tag ++ renderAttributes attributes ++ ">" ++ renderAll contents ++ "</" ++ tag ++ ">"
  | void tag attributes => "<" ++ tag ++ renderAttributes attributes ++ ">"

/-- The written form of pieces, one behind the other. -/
def renderAll : List Html → String
  | [] => ""
  | piece :: pieces => piece.render ++ renderAll pieces

end

end Html

end GridLang
