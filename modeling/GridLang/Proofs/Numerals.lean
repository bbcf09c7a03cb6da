import GridLang.Proofs.LongestLexeme

/-!
# GridLang.Proofs.Numerals

**Which texts are numerals**, said without the reader: digits, at least one, behind a sign or not
(`Numeral.Unsigned`, `Numeral.Signed`), with the value that they denote. The reader accepts exactly
the numerals whose value fits into 64 bits (`readUInt64_eq_ok_iff`, `readInt64_eq_ok_iff`), and what
is written for a number denotes it (`unsigned_ofUInt64`).
-/

namespace GridLang

theorem Except.map_eq_ok_iff {ε α β : Type} {x : Except ε α} {f : α → β} {b : β} :
    x.map f = .ok b ↔ ∃ a, x = .ok a ∧ f a = b := by
  cases x <;> simp [Except.map]

theorem isDigits_toDigits (n : Nat) : Lexeme.IsDigits (Nat.toDigits 10 n) :=
  ⟨Nat.toDigits_ne_nil, fun _ hc => Nat.isDigit_of_mem_toDigits (by decide) (by decide) hc⟩

namespace Numeral

/-! ### What a numeral denotes -/

/-- The value of a run of digits, whatever its leading zeros. -/
def value (ds : List Char) : Nat := Nat.ofDigitChars 10 ds 0

/-- A numeral of a natural number: digits, with a `+` in front or not. -/
inductive Unsigned : List Char → Nat → Prop
  | digits {ds : List Char} : Lexeme.IsDigits ds → Unsigned ds (value ds)
  | plus {ds : List Char} : Lexeme.IsDigits ds → Unsigned ('+' :: ds) (value ds)

/-- A numeral of an integer: one of a natural number, or digits with a `-` in front. -/
inductive Signed : List Char → Int → Prop
  | unsigned {cs : List Char} {n : Nat} : Unsigned cs n → Signed cs n
  | minus {ds : List Char} : Lexeme.IsDigits ds → Signed ('-' :: ds) (-value ds)

/-- Digits start with no sign. -/
theorem not_isDigits_cons {c : Char} {cs : List Char} (hc : c.isDigit = false) :
    ¬ Lexeme.IsDigits (c :: cs) := fun h => h.not_mem hc List.mem_cons_self

theorem ne_cons_of_isDigits {c : Char} {ds : List Char} (h : Lexeme.IsDigits ds)
    (hc : c.isDigit = false) (cs : List Char) : ds ≠ c :: cs :=
  fun heq => not_isDigits_cons hc (heq ▸ h)

theorem unsigned_plus_iff {ds : List Char} {n : Nat} :
    Unsigned ('+' :: ds) n ↔ Lexeme.IsDigits ds ∧ value ds = n := by
  constructor
  · intro hn
    cases hn with
    | digits h => exact absurd h (not_isDigits_cons rfl)
    | plus h => exact ⟨h, rfl⟩
  · intro hn
    obtain ⟨h, rfl⟩ := hn
    exact .plus h

theorem unsigned_iff_of_ne_plus {cs : List Char} {n : Nat} (h : ∀ ds, cs ≠ '+' :: ds) :
    Unsigned cs n ↔ Lexeme.IsDigits cs ∧ value cs = n := by
  constructor
  · intro hn
    cases hn with
    | digits hd => exact ⟨hd, rfl⟩
    | plus => exact absurd rfl (h _)
  · intro hn
    obtain ⟨hd, rfl⟩ := hn
    exact .digits hd

theorem signed_minus_iff {ds : List Char} {z : Int} :
    Signed ('-' :: ds) z ↔ Lexeme.IsDigits ds ∧ z = -value ds := by
  constructor
  · intro hz
    cases hz with
    | unsigned hn =>
        cases hn with
        | digits h => exact absurd h (not_isDigits_cons rfl)
    | minus h => exact ⟨h, rfl⟩
  · intro hz
    obtain ⟨h, rfl⟩ := hz
    exact .minus h

theorem signed_iff_of_ne_minus {cs : List Char} {z : Int} (h : ∀ ds, cs ≠ '-' :: ds) :
    Signed cs z ↔ ∃ n : Nat, Unsigned cs n ∧ z = n := by
  constructor
  · intro hz
    cases hz with
    | @unsigned _ n hn => exact ⟨n, hn, rfl⟩
    | minus => exact absurd rfl (h _)
  · intro hz
    obtain ⟨n, hn, rfl⟩ := hz
    exact .unsigned hn

/-- Digits alone are a numeral of their value. -/
theorem unsigned_iff_of_isDigits {ds : List Char} {n : Nat} (h : Lexeme.IsDigits ds) :
    Unsigned ds n ↔ n = value ds := by
  rw [unsigned_iff_of_ne_plus (ne_cons_of_isDigits h rfl), and_iff_right h, eq_comm]

theorem signed_iff_of_isDigits {ds : List Char} {z : Int} (h : Lexeme.IsDigits ds) :
    Signed ds z ↔ z = value ds := by
  simp [signed_iff_of_ne_minus (ne_cons_of_isDigits h rfl), unsigned_iff_of_isDigits h]

/-! ### What is read -/

theorem readMagnitude_eq_ok_iff {bound n : Nat} {cs : List Char} :
    readMagnitude bound cs = .ok n ↔ Lexeme.IsDigits cs ∧ value cs = n ∧ n ≤ bound := by
  cases cs with
  | nil => simp [readMagnitude, Lexeme.IsDigits]
  | cons c cs =>
      rw [readMagnitude, readDigits_eq_ok_iff (Nat.zero_le bound)]
      · simp [Lexeme.IsDigits, value]
      · exact List.cons_ne_nil c cs

theorem readNat_eq_ok_iff {bound n : Nat} {cs : List Char} :
    readNat bound cs = .ok n ↔ Unsigned cs n ∧ n ≤ bound := by
  unfold readNat
  split
  next =>
    constructor
    · intro h
      cases h
    · intro h
      cases h.1 with
      | digits hd => exact absurd rfl hd.1
  next ds => rw [readMagnitude_eq_ok_iff, unsigned_plus_iff, and_assoc]
  next hplus => rw [readMagnitude_eq_ok_iff, unsigned_iff_of_ne_plus hplus, and_assoc]

/-- **Unsigned numbers of 64 bits**: the numerals of their values are read, and no other text. -/
theorem readUInt64_eq_ok_iff {n : UInt64} {cs : List Char} :
    readUInt64 cs = .ok n ↔ Unsigned cs n.toNat := by
  simp only [readUInt64, Except.map_eq_ok_iff, readNat_eq_ok_iff]
  constructor
  · intro hn
    obtain ⟨v, ⟨hv, hle⟩, rfl⟩ := hn
    rwa [UInt64.toNat_ofNat_of_lt' (Nat.lt_succ_of_le hle)]
  · intro hn
    exact ⟨n.toNat, ⟨hn, Nat.le_of_lt_succ n.toNat_lt⟩, UInt64.ofNat_toNat⟩

theorem readInt64_of_ne_minus {cs : List Char} (h : ∀ ds, cs ≠ '-' :: ds) :
    readInt64 cs = (readNat largestInt64 cs).map fun v : Nat => Int64.ofInt v := by
  unfold readInt64
  split
  next ds => exact absurd rfl (h ds)
  next => cases readNat largestInt64 cs <;> rfl

/-- **Signed numbers of 64 bits**: the numerals of their values are read, and no other text. -/
theorem readInt64_eq_ok_iff {n : Int64} {cs : List Char} :
    readInt64 cs = .ok n ↔ Signed cs n.toInt := by
  have hlo : -(9223372036854775808 : Int) ≤ n.toInt := n.le_toInt
  have hhi : n.toInt < 9223372036854775808 := n.toInt_lt
  by_cases hminus : ∃ ds, cs = '-' :: ds
  · -- The magnitude may be one larger than without the sign.
    obtain ⟨ds, rfl⟩ := hminus
    rw [signed_minus_iff, readInt64]
    constructor
    · intro hn
      cases hv : readMagnitude (largestInt64 + 1) ds with
      | error fault =>
          rw [hv] at hn
          cases fault <;> cases hn
      | ok v =>
          rw [hv] at hn
          cases hn
          obtain ⟨hd, rfl, hle⟩ := readMagnitude_eq_ok_iff.1 hv
          rw [largestInt64] at hle
          exact ⟨hd, Int64.toInt_ofInt_of_le (by omega) (by omega)⟩
    · intro hn
      obtain ⟨hd, hn⟩ := hn
      have hle : value ds ≤ largestInt64 + 1 := by
        rw [largestInt64]
        omega
      rw [readMagnitude_eq_ok_iff.2 ⟨hd, rfl, hle⟩]
      show Except.ok (Int64.ofInt (-value ds)) = .ok n
      rw [← hn, Int64.ofInt_toInt]
  · have hne : ∀ ds, cs ≠ '-' :: ds := fun ds h => hminus ⟨ds, h⟩
    rw [signed_iff_of_ne_minus hne, readInt64_of_ne_minus hne]
    simp only [Except.map_eq_ok_iff, readNat_eq_ok_iff, largestInt64]
    constructor
    · intro hn
      obtain ⟨v, ⟨hv, hle⟩, rfl⟩ := hn
      exact ⟨v, hv, Int64.toInt_ofInt_of_le (by omega) (by omega)⟩
    · intro hn
      obtain ⟨v, hv, hn⟩ := hn
      exact ⟨v, ⟨hv, by omega⟩, by rw [← hn, Int64.ofInt_toInt]⟩

theorem readUInt64_of_isDigits {n : UInt64} {ds : List Char} (h : Lexeme.IsDigits ds) :
    readUInt64 ds = .ok n ↔ n.toNat = value ds :=
  readUInt64_eq_ok_iff.trans (unsigned_iff_of_isDigits h)

theorem readInt64_of_isDigits {n : Int64} {ds : List Char} (h : Lexeme.IsDigits ds) :
    readInt64 ds = .ok n ↔ n.toInt = value ds :=
  readInt64_eq_ok_iff.trans (signed_iff_of_isDigits h)

/-! ### What is written -/

theorem value_toDigits (n : Nat) : value (Nat.toDigits 10 n) = n :=
  Nat.ofDigitChars_toDigits (by decide) (by decide)

theorem isDigit_of_mem_ofUInt64 {n : UInt64} {c : Char} (h : c ∈ (ofUInt64 n).toList) :
    c.isDigit = true := by
  rw [ofUInt64, toList_ofNat] at h
  exact (isDigits_toDigits n.toNat).2 c h

theorem unsigned_ofUInt64 (n : UInt64) : Unsigned (ofUInt64 n).toList n.toNat :=
  readUInt64_eq_ok_iff.1 (readUInt64_ofUInt64 n)

end Numeral

end GridLang
