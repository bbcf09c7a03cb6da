/-!
# GridLang.Text.Numeral

**Decimal numerals**: how numbers are written, and how the text of one is read back.

A numeral is one optional sign followed by ASCII digits, at least one. Leading zeros are
allowed, and a `+` is always allowed; a `-` only where negative numbers are. Reading goes from
left to right, so the first character that cannot be accepted decides which fault is reported:
a character that is no digit, or the digit that takes the value out of range.

* `Numeral.readUInt64` and `Numeral.readInt64` read, `Numeral.ofUInt64` and `Numeral.ofInt64`
  write.
* `readDigits_eq_ok_iff` says what is accepted: digits only, with a value in range. The value of
  a run of digits is `Nat.ofDigitChars 10`.
* `readUInt64_ofUInt64` and `readInt64_ofInt64`: what is written is read back.
-/

namespace GridLang

/-- Why a text is not a numeral of the wanted range. -/
inductive NumeralFault
  /-- There is no text at all. -/
  | empty
  /-- A character is no digit, or a sign stands alone. -/
  | invalidDigit
  /-- The value is above the range. -/
  | tooLarge
  /-- The value is below the range. -/
  | tooSmall
  deriving Repr, DecidableEq

namespace NumeralFault

/-- The wording of a fault. -/
def message : NumeralFault → String
  | empty => "cannot parse integer from empty string"
  | invalidDigit => "invalid digit found in string"
  | tooLarge => "number too large to fit in target type"
  | tooSmall => "number too small to fit in target type"

end NumeralFault

namespace Numeral

/-- Reads digits from left to right on top of the value `acc` read so far, keeping the value at
most `bound`. -/
def readDigits (bound : Nat) : Nat → List Char → Except NumeralFault Nat
  | acc, [] => .ok acc
  | acc, c :: cs =>
    if c.isDigit then
      let value := 10 * acc + (c.toNat - '0'.toNat)
      if value ≤ bound then readDigits bound value cs else .error .tooLarge
    else .error .invalidDigit

/-- Reads the digits behind an optional sign; there has to be one. -/
def readMagnitude (bound : Nat) : List Char → Except NumeralFault Nat
  | [] => .error .invalidDigit
  | cs => readDigits bound 0 cs

/-- Reads a numeral that is at most `bound`, with an optional `+` in front. -/
def readNat (bound : Nat) : List Char → Except NumeralFault Nat
  | [] => .error .empty
  | '+' :: cs => readMagnitude bound cs
  | cs => readMagnitude bound cs

/-- The largest unsigned 64-bit number. -/
def largestUInt64 : Nat := 18446744073709551615

/-- The largest signed 64-bit number. The magnitude of the smallest is one more. -/
def largestInt64 : Nat := 9223372036854775807

/-- Reads an unsigned 64-bit number. -/
def readUInt64 (cs : List Char) : Except NumeralFault UInt64 :=
  (readNat largestUInt64 cs).map UInt64.ofNat

/-- Reads a signed 64-bit number. Behind a `-` the magnitude may be one larger than behind a
`+`, and a magnitude out of range is a number too small. -/
def readInt64 : List Char → Except NumeralFault Int64
  | '-' :: cs =>
    match readMagnitude (largestInt64 + 1) cs with
    | .ok n => .ok (Int64.ofInt (-n))
    | .error .tooLarge => .error .tooSmall
    | .error fault => .error fault
  | cs => (readNat largestInt64 cs).map fun n => Int64.ofInt n

/-- The digits of a natural number, without leading zeros. -/
def ofNat (n : Nat) : String := n.repr

/-- The numeral of an unsigned number. -/
def ofUInt64 (n : UInt64) : String := ofNat n.toNat

/-- The numeral of a signed number: a `-` in front of the magnitude of a negative one. -/
def ofInt64 (n : Int64) : String :=
  if n.toInt < 0 then "-" ++ ofNat n.toInt.natAbs else ofNat n.toInt.natAbs

/-! ## What is read and what is written -/

theorem le_ofDigitChars (acc : Nat) (cs : List Char) : acc ≤ Nat.ofDigitChars 10 cs acc := by
  induction cs generalizing acc with
  | nil => exact Nat.le_refl acc
  | cons c cs ih =>
    rw [Nat.ofDigitChars_cons]
    exact Nat.le_trans (by omega) (ih _)

/-- Digits are accepted exactly when all are digits and their value is within the bound. -/
theorem readDigits_eq_ok_iff {bound acc n : Nat} {cs : List Char} (hacc : acc ≤ bound) :
    readDigits bound acc cs = .ok n ↔
      (∀ c ∈ cs, c.isDigit = true) ∧ Nat.ofDigitChars 10 cs acc = n ∧ n ≤ bound := by
  induction cs generalizing acc with
  | nil =>
    simp only [readDigits, Except.ok.injEq, Nat.ofDigitChars, List.foldl_nil, List.not_mem_nil,
      false_implies, implies_true, true_and]
    omega
  | cons c cs ih =>
    rw [Nat.ofDigitChars_cons, readDigits]
    by_cases hc : c.isDigit = true
    · by_cases hv : 10 * acc + (c.toNat - '0'.toNat) ≤ bound
      · simp only [hc, hv, if_true, ih hv, List.mem_cons, forall_eq_or_imp, true_and]
      · have := le_ofDigitChars (10 * acc + (c.toNat - '0'.toNat)) cs
        simp only [hc, hv, if_true, if_false, List.mem_cons, forall_eq_or_imp, true_and]
        constructor
        · intro h; cases h
        · rintro ⟨-, rfl, h⟩; omega
    · simp [hc]

@[simp] theorem toList_ofNat (n : Nat) : (ofNat n).toList = Nat.toDigits 10 n := by
  simp [ofNat, Nat.repr]

theorem readDigits_toDigits {bound n : Nat} (h : n ≤ bound) :
    readDigits bound 0 (Nat.toDigits 10 n) = .ok n :=
  (readDigits_eq_ok_iff (Nat.zero_le bound)).2
    ⟨fun _ hc => Nat.isDigit_of_mem_toDigits (by decide) (by decide) hc,
      Nat.ofDigitChars_toDigits (by decide) (by decide), h⟩

theorem readMagnitude_toDigits {bound n : Nat} (h : n ≤ bound) :
    readMagnitude bound (Nat.toDigits 10 n) = .ok n := by
  cases hd : Nat.toDigits 10 n with
  | nil => exact absurd hd Nat.toDigits_ne_nil
  | cons d ds =>
    rw [readMagnitude, ← hd]
    · exact readDigits_toDigits h
    · simp

theorem isDigit_head_of_toDigits {n : Nat} {c : Char} {cs : List Char}
    (h : Nat.toDigits 10 n = c :: cs) : c.isDigit = true :=
  Nat.isDigit_of_mem_toDigits (b := 10) (by decide) (by decide) (h ▸ List.mem_cons_self)

theorem readNat_toDigits {bound n : Nat} (h : n ≤ bound) :
    readNat bound (Nat.toDigits 10 n) = .ok n := by
  have hm := readMagnitude_toDigits h
  unfold readNat
  split
  next e => exact absurd e Nat.toDigits_ne_nil
  next cs e => exact absurd (isDigit_head_of_toDigits e) (by decide)
  · exact hm

/-- An unsigned number is read back from its numeral. -/
theorem readUInt64_ofUInt64 (n : UInt64) : readUInt64 (ofUInt64 n).toList = .ok n := by
  have h : n.toNat ≤ largestUInt64 := Nat.le_of_lt_succ n.toNat_lt
  rw [ofUInt64, toList_ofNat, readUInt64, readNat_toDigits h]
  exact congrArg Except.ok UInt64.ofNat_toNat

/-- A signed number is read back from its numeral. -/
theorem readInt64_ofInt64 (n : Int64) : readInt64 (ofInt64 n).toList = .ok n := by
  have lo : -(9223372036854775808 : Int) ≤ n.toInt := n.le_toInt
  have hi : n.toInt < 9223372036854775808 := n.toInt_lt
  unfold ofInt64
  split
  next neg =>
    have h : n.toInt.natAbs ≤ largestInt64 + 1 := by simp only [largestInt64]; omega
    have e : -(n.toInt.natAbs : Int) = n.toInt := by omega
    rw [String.toList_append, toList_ofNat]
    show readInt64 ('-' :: Nat.toDigits 10 n.toInt.natAbs) = _
    rw [readInt64, readMagnitude_toDigits h]
    simp only [e, Int64.ofInt_toInt]
  next neg =>
    have h : n.toInt.natAbs ≤ largestInt64 := by simp only [largestInt64]; omega
    have e : (n.toInt.natAbs : Int) = n.toInt := by omega
    rw [toList_ofNat]
    unfold readInt64
    split
    next cs e => exact absurd (isDigit_head_of_toDigits e) (by decide)
    · rw [readNat_toDigits h]
      exact congrArg Except.ok ((congrArg Int64.ofInt e).trans (Int64.ofInt_toInt n))

end Numeral

end GridLang
