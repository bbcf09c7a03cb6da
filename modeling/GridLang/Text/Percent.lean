/-!
# GridLang.Text.Percent

**Percent encoding** of octets: a `%` and two hexadecimal digits stand for one octet. A `%`
without two digits behind it stands for itself, so every sequence of octets can be decoded.
-/

namespace GridLang.Percent

/-- The octet of the percent sign. -/
def sign : UInt8 := 0x25

/-- The value of an octet that is a hexadecimal digit, of either case. -/
def hexValue? (octet : UInt8) : Option UInt8 :=
  if 0x30 ≤ octet ∧ octet ≤ 0x39 then some (octet - 0x30)
  else if 0x41 ≤ octet ∧ octet ≤ 0x46 then some (octet - 0x41 + 10)
  else if 0x61 ≤ octet ∧ octet ≤ 0x66 then some (octet - 0x61 + 10)
  else none

/-- The octet that two hexadecimal digits name. -/
def pairValue? (high low : UInt8) : Option UInt8 := do
  let high ← hexValue? high
  let low ← hexValue? low
  return 16 * high + low

/-- Replaces each sign with two digits behind it by the octet they name. Fewer than three octets
hold no such group. -/
def decode : List UInt8 → List UInt8
  | octet :: high :: low :: rest =>
    match if octet = sign then pairValue? high low else none with
    | some value => value :: decode rest
    -- The two octets behind may start groups of their own.
    | none => octet :: decode (high :: low :: rest)
  | octets => octets

/-- The upper-case hexadecimal digit of a value below 16. -/
def hexDigit (value : UInt8) : UInt8 := if value < 10 then 0x30 + value else 0x41 + (value - 10)

/-- The sign and the two digits that name an octet. -/
def encodeOctet (octet : UInt8) : List UInt8 := [sign, hexDigit (octet / 16), hexDigit (octet % 16)]

end GridLang.Percent
