/-!
# GridLang.Text.Utf8

**UTF-8**: octets to characters and back.

Decoding takes one octet at a time. Between characters the decoder is at rest; inside one it
knows the bits read so far, how many octets are owed, and which octets may come next, which is
what rules out overlong forms, surrogates and code points above U+10FFFF. An octet that cannot
continue a character ends it at once and is then looked at afresh, so every broken stretch is as
long as it can be and counts as one.

* `Utf8.decode` gives the characters, with `none` for each broken stretch.
* `Utf8.decode?` accepts only unbroken text, `Utf8.decodeLossy` shows U+FFFD for each break.
* `decode_encode`: the octets of a text are decoded to that text, without a break.
-/

namespace GridLang.Utf8

/-- The octets of a text. -/
def encode (cs : List Char) : List UInt8 := cs.flatMap String.utf8EncodeChar

@[simp] theorem encode_nil : encode [] = [] := rfl

@[simp] theorem encode_cons (c : Char) (cs : List Char) :
    encode (c :: cs) = String.utf8EncodeChar c ++ encode cs := rfl

@[simp] theorem encode_append (cs ds : List Char) : encode (cs ++ ds) = encode cs ++ encode ds := by
  simp [encode]

/-- A character whose first octets have been read. -/
structure Partial where
  /-- The bits read so far. -/
  code : Nat
  /-- How many octets follow the next one. -/
  more : Nat
  /-- The least octet that may come next. -/
  low : Nat
  /-- The greatest octet that may come next. -/
  high : Nat
  deriving Repr, DecidableEq

/-- What an octet leads to: the characters and breaks it completes, and the character that is
then open. -/
abbrev Advance := List (Option Char) × Option Partial

/-- The first octet of a character. -/
def first (octet : UInt8) : Advance :=
  let b := octet.toNat
  if b < 0x80 then ([some (Char.ofNat b)], none)
  else if 0xC2 ≤ b ∧ b ≤ 0xDF then ([], some ⟨b - 0xC0, 0, 0x80, 0xBF⟩)
  else if b = 0xE0 then ([], some ⟨0, 1, 0xA0, 0xBF⟩)
  else if b = 0xED then ([], some ⟨0xD, 1, 0x80, 0x9F⟩)
  else if 0xE1 ≤ b ∧ b ≤ 0xEF then ([], some ⟨b - 0xE0, 1, 0x80, 0xBF⟩)
  else if b = 0xF0 then ([], some ⟨0, 2, 0x90, 0xBF⟩)
  else if 0xF1 ≤ b ∧ b ≤ 0xF3 then ([], some ⟨b - 0xF0, 2, 0x80, 0xBF⟩)
  else if b = 0xF4 then ([], some ⟨4, 2, 0x80, 0x8F⟩)
  else ([none], none)

/-- The next octet, inside a character or between two. -/
def next (state : Option Partial) (octet : UInt8) : Advance :=
  match state with
  | none => first octet
  | some p =>
    let b := octet.toNat
    if p.low ≤ b ∧ b ≤ p.high then
      let code := 64 * p.code + (b - 0x80)
      match p.more with
      | 0 => ([some (Char.ofNat code)], none)
      | more + 1 => ([], some ⟨code, more, 0x80, 0xBF⟩)
    else
      -- The open character breaks off, and the octet starts afresh.
      let (done, state) := first octet
      (none :: done, state)

/-- Decodes octets from a given state; a character still open at the end is a break. -/
def decodeFrom : Option Partial → List UInt8 → List (Option Char)
  | none, [] => []
  | some _, [] => [none]
  | state, octet :: octets =>
    let (done, state) := next state octet
    done ++ decodeFrom state octets

/-- The characters of a sequence of octets, with `none` for each broken stretch. -/
def decode (octets : List UInt8) : List (Option Char) := decodeFrom none octets

/-- The text of a sequence of octets that has no break. -/
def decode? (octets : List UInt8) : Option String :=
  ((decode octets).mapM id).map String.ofList

/-- The text of a sequence of octets, with U+FFFD for each break. -/
def decodeLossy (octets : List UInt8) : String :=
  String.ofList ((decode octets).map (·.getD '\uFFFD'))

/-! ## What is encoded is decoded -/

theorem first_eq_two {b : UInt8} (lo : 0xC2 ≤ b.toNat) (hi : b.toNat ≤ 0xDF) :
    first b = ([], some ⟨b.toNat - 0xC0, 0, 0x80, 0xBF⟩) := by
  simp only [first]
  rw [if_neg (by omega), if_pos (by omega)]

theorem first_eq_three {b : UInt8} (lo : 0xE0 ≤ b.toNat) (hi : b.toNat ≤ 0xEF) :
    first b = ([], some ⟨b.toNat - 0xE0, 1, if b.toNat = 0xE0 then 0xA0 else 0x80,
      if b.toNat = 0xED then 0x9F else 0xBF⟩) := by
  simp only [first]
  rw [if_neg (by omega), if_neg (by omega)]
  by_cases h0 : b.toNat = 0xE0
  · simp [h0]
  · by_cases hd : b.toNat = 0xED
    · simp [hd]
    · rw [if_neg h0, if_neg hd, if_pos (by omega), if_neg h0, if_neg hd]

theorem first_eq_four {b : UInt8} (lo : 0xF0 ≤ b.toNat) (hi : b.toNat ≤ 0xF4) :
    first b = ([], some ⟨b.toNat - 0xF0, 2, if b.toNat = 0xF0 then 0x90 else 0x80,
      if b.toNat = 0xF4 then 0x8F else 0xBF⟩) := by
  simp only [first]
  rw [if_neg (by omega), if_neg (by omega), if_neg (by omega), if_neg (by omega),
    if_neg (by omega)]
  by_cases h0 : b.toNat = 0xF0
  · simp [h0]
  · by_cases h4 : b.toNat = 0xF4
    · simp [h4]
    · rw [if_neg h0, if_pos (by omega), if_neg h0, if_neg h4]

/-- Inside a character, an octet that may come next brings six more bits. -/
theorem decodeFrom_some_cons {p : Partial} {b : UInt8} {bs : List UInt8}
    (lo : p.low ≤ b.toNat) (hi : b.toNat ≤ p.high) :
    decodeFrom (some p) (b :: bs) =
      match p.more with
      | 0 => some (Char.ofNat (64 * p.code + (b.toNat - 0x80))) :: decodeFrom none bs
      | more + 1 => decodeFrom (some ⟨64 * p.code + (b.toNat - 0x80), more, 0x80, 0xBF⟩) bs := by
  rw [decodeFrom]
  · simp only [next]
    rw [if_pos ⟨lo, hi⟩]
    cases p.more <;> rfl

theorem decodeFrom_none_cons {b : UInt8} {bs : List UInt8} :
    decodeFrom none (b :: bs) = (first b).1 ++ decodeFrom (first b).2 bs := by
  rw [decodeFrom]; rfl

/-- The octets of a character are decoded to that character. -/
theorem decodeFrom_utf8EncodeChar (c : Char) (rest : List UInt8) :
    decodeFrom none (String.utf8EncodeChar c ++ rest) = some c :: decodeFrom none rest := by
  have valid : c.toNat < 0xD800 ∨ 0xDFFF < c.toNat ∧ c.toNat < 0x110000 := c.valid
  have hc : Char.ofNat c.toNat = c := Char.ofNat_toNat c
  simp only [String.utf8EncodeChar, Char.toNat_val]
  generalize c.toNat = v at valid hc
  -- One octet.
  split
  · have e : (UInt8.ofNat v).toNat = v := by rw [UInt8.toNat_ofNat']; omega
    rw [List.cons_append, decodeFrom_none_cons, first, if_pos (by omega), e, hc]
    rfl
  -- Two octets: six bits behind the first.
  split
  · have e1 : (UInt8.ofNat (v / 64 % 32 + 192)).toNat = v / 64 + 192 := by
      rw [UInt8.toNat_ofNat']; omega
    have e2 : (UInt8.ofNat (v % 64 + 128)).toNat = v % 64 + 128 := by
      rw [UInt8.toNat_ofNat']; omega
    rw [List.cons_append, decodeFrom_none_cons, first_eq_two (by omega) (by omega),
      List.cons_append, List.nil_append, List.nil_append,
      decodeFrom_some_cons (by dsimp only; omega) (by dsimp only; omega)]
    simp only [e1, e2]
    rw [show 64 * (v / 64 + 192 - 0xC0) + (v % 64 + 128 - 0x80) = v by omega, hc]
  -- Three octets: the range of the second rules out overlong forms and surrogates.
  split
  · have e1 : (UInt8.ofNat (v / 4096 % 16 + 224)).toNat = v / 4096 + 224 := by
      rw [UInt8.toNat_ofNat']; omega
    have e2 : (UInt8.ofNat (v / 64 % 64 + 128)).toNat = v / 64 % 64 + 128 := by
      rw [UInt8.toNat_ofNat']; omega
    have e3 : (UInt8.ofNat (v % 64 + 128)).toNat = v % 64 + 128 := by
      rw [UInt8.toNat_ofNat']; omega
    rw [List.cons_append, decodeFrom_none_cons, first_eq_three (by omega) (by omega),
      List.cons_append, List.nil_append,
      decodeFrom_some_cons (by dsimp only; split <;> omega) (by dsimp only; split <;> omega)]
    dsimp only
    rw [List.cons_append, List.nil_append,
      decodeFrom_some_cons (by dsimp only; omega) (by dsimp only; omega)]
    simp only [e1, e2, e3]
    rw [show 64 * (64 * (v / 4096 + 224 - 0xE0) + (v / 64 % 64 + 128 - 0x80)) +
      (v % 64 + 128 - 0x80) = v by omega, hc]
  -- Four octets: the range of the second keeps the code point between U+10000 and U+10FFFF.
  · have e1 : (UInt8.ofNat (v / 262144 % 8 + 240)).toNat = v / 262144 + 240 := by
      rw [UInt8.toNat_ofNat']; omega
    have e2 : (UInt8.ofNat (v / 4096 % 64 + 128)).toNat = v / 4096 % 64 + 128 := by
      rw [UInt8.toNat_ofNat']; omega
    have e3 : (UInt8.ofNat (v / 64 % 64 + 128)).toNat = v / 64 % 64 + 128 := by
      rw [UInt8.toNat_ofNat']; omega
    have e4 : (UInt8.ofNat (v % 64 + 128)).toNat = v % 64 + 128 := by
      rw [UInt8.toNat_ofNat']; omega
    rw [List.cons_append, decodeFrom_none_cons, first_eq_four (by omega) (by omega),
      List.cons_append, List.nil_append,
      decodeFrom_some_cons (by dsimp only; split <;> omega) (by dsimp only; split <;> omega)]
    dsimp only
    rw [List.cons_append, decodeFrom_some_cons (by dsimp only; omega) (by dsimp only; omega)]
    dsimp only
    rw [List.cons_append, List.nil_append,
      decodeFrom_some_cons (by dsimp only; omega) (by dsimp only; omega)]
    simp only [e1, e2, e3, e4]
    rw [show 64 * (64 * (64 * (v / 262144 + 240 - 0xF0) + (v / 4096 % 64 + 128 - 0x80)) +
      (v / 64 % 64 + 128 - 0x80)) + (v % 64 + 128 - 0x80) = v by omega, hc]

/-- **The octets of a text are decoded to that text**, without a break. -/
theorem decode_encode (cs : List Char) : decode (encode cs) = cs.map some := by
  induction cs with
  | nil => rfl
  | cons c cs ih => rw [encode_cons, decode, decodeFrom_utf8EncodeChar, ← decode, ih, List.map_cons]

/-- Text is read back from its octets. -/
theorem decode?_encode (s : String) : decode? (encode s.toList) = some s := by
  have h : ∀ cs : List Char, (cs.map some).mapM id = some cs := fun cs => by
    induction cs with
    | nil => rfl
    | cons c cs ih => simp [ih]
  rw [decode?, decode_encode, h, Option.map_some, String.ofList_toList]

end GridLang.Utf8
