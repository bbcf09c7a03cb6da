import GridLang.Playground.Session
import GridLang.Text.Cut
import GridLang.Text.Percent
import GridLang.Text.Utf8

/-!
# GridLang.Playground.Form

**Submitted forms**, as `application/x-www-form-urlencoded` octets: fields separated by `&`, the
name and the text of a field by the first `=`. In both, a `+` stands for a blank and percent
encoding for everything else. Every sequence of octets is a form: an empty field is left out, a
field without `=` has an empty text, and octets that are not UTF-8 are shown as U+FFFD.
-/

namespace GridLang.Playground.Form

/-- The octet between two fields. -/
def fieldSeparator : UInt8 := 0x26

/-- The octet between the name and the text of a field. -/
def nameSeparator : UInt8 := 0x3D

/-- The octet that stands for a blank. -/
def plus : UInt8 := 0x2B

/-- The octet of a blank. -/
def blank : UInt8 := 0x20

/-- A name or a text, decoded. -/
def decodePart (octets : List UInt8) : String :=
  Utf8.decodeLossy (Percent.decode (octets.map fun b => if b = plus then blank else b))

/-- A field, decoded. -/
def decodeField (octets : List UInt8) : String × String :=
  match Text.cut nameSeparator octets with
  | some (name, text) => (decodePart name, decodePart text)
  | none => (decodePart octets, "")

/-- The fields of a form. -/
def decode (octets : List UInt8) : Fields :=
  ((octets.splitOn fieldSeparator).filter (· ≠ [])).map decodeField

/-- Whether an octet stands for itself in a form: letters, digits, and `*`, `-`, `.`, `_`. -/
def standsForItself (octet : UInt8) : Bool :=
  (0x30 ≤ octet && octet ≤ 0x39) || (0x41 ≤ octet && octet ≤ 0x5A) ||
    (0x61 ≤ octet && octet ≤ 0x7A) || [0x2A, 0x2D, 0x2E, 0x5F].contains octet

/-- How an octet of a name or a text is written. -/
def encodeOctet (octet : UInt8) : List UInt8 :=
  if octet = blank then [plus]
  else if standsForItself octet then [octet]
  else Percent.encodeOctet octet

/-- A name or a text, encoded. -/
def encodePart (s : String) : List UInt8 := (Utf8.encode s.toList).flatMap encodeOctet

/-- A field, encoded. -/
def encodeField (field : String × String) : List UInt8 :=
  encodePart field.1 ++ nameSeparator :: encodePart field.2

/-- The octets of a form. -/
def encode (fields : Fields) : List UInt8 :=
  List.intercalate [fieldSeparator] (fields.map encodeField)

end GridLang.Playground.Form
