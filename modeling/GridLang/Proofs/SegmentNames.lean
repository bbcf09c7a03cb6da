import GridLang.Playground.Request
import Mathlib.Data.Char
import Mathlib.Data.List.Infix

/-!
# GridLang.Proofs.SegmentNames

**Which names can stand for themselves** as segments of a path. A segment is decoded twice, from
percent encoding and from UTF-8, and neither makes it longer. So a segment that is no longer than
its name is its name, and it is decoded to itself unless some percent sign in it has two digits
behind it.

* `Utf8.encode_of_decode`: octets without a break are those of the text they are decoded to.
* `Percent.decode_encode_eq_self_iff`: percent encoding leaves a text alone unless there is a group
  in it.
* `Playground.sessionName?_of_prefix_iff`: so a beginning of a name is decoded to the name only if
  it is all of it and has no group in it.
-/

namespace GridLang

/-! ### Octets of a text -/

namespace Utf8

theorem utf8EncodeChar_ofNat {v : Nat} (h : v.isValidChar) :
    String.utf8EncodeChar (Char.ofNat v) =
      if v ≤ 127 then [UInt8.ofNat v]
      else if v ≤ 2047 then [UInt8.ofNat (v / 64 % 32 + 192), UInt8.ofNat (v % 64 + 128)]
      else if v ≤ 65535 then
        [UInt8.ofNat (v / 4096 % 16 + 224), UInt8.ofNat (v / 64 % 64 + 128),
          UInt8.ofNat (v % 64 + 128)]
      else
        [UInt8.ofNat (v / 262144 % 8 + 240), UInt8.ofNat (v / 4096 % 64 + 128),
          UInt8.ofNat (v / 64 % 64 + 128), UInt8.ofNat (v % 64 + 128)] := by
  have hv : (Char.ofNat v).val.toNat = v := by
    rw [Char.ofNat, dif_pos h]
    rfl
  simp only [String.utf8EncodeChar, hv]

theorem ofNat_eq_iff {n : Nat} {b : UInt8} : UInt8.ofNat n = b ↔ n % 256 = b.toNat := by
  rw [← UInt8.toNat_inj, UInt8.toNat_ofNat']

/-- A character of the first half, below 128, is one octet. -/
theorem utf8EncodeChar_of_lt {c : Char} (h : c.toNat < 0x80) :
    String.utf8EncodeChar c = [UInt8.ofNat c.toNat] := by
  have hc := utf8EncodeChar_ofNat c.valid
  rwa [Char.toNat_val, Char.ofNat_toNat, if_pos (by omega)] at hc

section Octets

variable {v : Nat} {b₁ b₂ b₃ b₄ : UInt8}

theorem utf8EncodeChar_two (hv : v = 64 * (b₁.toNat - 0xC0) + (b₂.toNat - 0x80))
    (lo₁ : 0xC2 ≤ b₁.toNat) (hi₁ : b₁.toNat ≤ 0xDF) (lo₂ : 0x80 ≤ b₂.toNat)
    (hi₂ : b₂.toNat ≤ 0xBF) : String.utf8EncodeChar (Char.ofNat v) = [b₁, b₂] := by
  rw [utf8EncodeChar_ofNat (.inl (by omega)), if_neg (by omega), if_pos (by omega)]
  simp only [List.cons.injEq, ofNat_eq_iff, and_true]
  omega

theorem utf8EncodeChar_three
    (hv : v = 64 * (64 * (b₁.toNat - 0xE0) + (b₂.toNat - 0x80)) + (b₃.toNat - 0x80))
    (lo₁ : 0xE0 ≤ b₁.toNat) (hi₁ : b₁.toNat ≤ 0xEF)
    (lo₂ : (if b₁.toNat = 0xE0 then 0xA0 else 0x80) ≤ b₂.toNat)
    (hi₂ : b₂.toNat ≤ if b₁.toNat = 0xED then 0x9F else 0xBF) (lo₃ : 0x80 ≤ b₃.toNat)
    (hi₃ : b₃.toNat ≤ 0xBF) : String.utf8EncodeChar (Char.ofNat v) = [b₁, b₂, b₃] := by
  have h₂ : 0x80 ≤ b₂.toNat ∧ b₂.toNat ≤ 0xBF := by
    constructor
    · split at lo₂ <;> omega
    · split at hi₂ <;> omega
  have hlow : 2047 < v := by split at lo₂ <;> omega
  have hvalid : v.isValidChar := by
    show v < 55296 ∨ 57343 < v ∧ v < 1114112
    split at hi₂ <;> omega
  rw [utf8EncodeChar_ofNat hvalid, if_neg (by omega), if_neg (by omega), if_pos (by omega)]
  simp only [List.cons.injEq, ofNat_eq_iff, and_true]
  omega

theorem utf8EncodeChar_four
    (hv : v = 64 * (64 * (64 * (b₁.toNat - 0xF0) + (b₂.toNat - 0x80)) + (b₃.toNat - 0x80)) +
      (b₄.toNat - 0x80))
    (lo₁ : 0xF0 ≤ b₁.toNat) (hi₁ : b₁.toNat ≤ 0xF4)
    (lo₂ : (if b₁.toNat = 0xF0 then 0x90 else 0x80) ≤ b₂.toNat)
    (hi₂ : b₂.toNat ≤ if b₁.toNat = 0xF4 then 0x8F else 0xBF) (lo₃ : 0x80 ≤ b₃.toNat)
    (hi₃ : b₃.toNat ≤ 0xBF) (lo₄ : 0x80 ≤ b₄.toNat) (hi₄ : b₄.toNat ≤ 0xBF) :
    String.utf8EncodeChar (Char.ofNat v) = [b₁, b₂, b₃, b₄] := by
  have h₂ : 0x80 ≤ b₂.toNat ∧ b₂.toNat ≤ 0xBF := by
    constructor
    · split at lo₂ <;> omega
    · split at hi₂ <;> omega
  have hlow : 65535 < v := by split at lo₂ <;> omega
  have hhigh : v < 1114112 := by split at hi₂ <;> omega
  rw [utf8EncodeChar_ofNat (.inr ⟨by omega, hhigh⟩), if_neg (by omega), if_neg (by omega),
    if_neg (by omega)]
  simp only [List.cons.injEq, ofNat_eq_iff, and_true]
  omega

end Octets

/-- The first octet of a text tells how many octets its first character has, or it is a break. -/
theorem first_cases (b : UInt8) :
    b.toNat < 0x80 ∨ (0xC2 ≤ b.toNat ∧ b.toNat ≤ 0xDF) ∨ (0xE0 ≤ b.toNat ∧ b.toNat ≤ 0xEF) ∨
      (0xF0 ≤ b.toNat ∧ b.toNat ≤ 0xF4) ∨ first b = ([none], none) := by
  by_cases h : b.toNat < 0x80 ∨ (0xC2 ≤ b.toNat ∧ b.toNat ≤ 0xF4)
  · omega
  · refine .inr (.inr (.inr (.inr ?_)))
    simp only [first]
    rw [if_neg (by omega), if_neg (by omega), if_neg (by omega), if_neg (by omega),
      if_neg (by omega), if_neg (by omega), if_neg (by omega), if_neg (by omega)]

/-- Inside a character, only an octet that may come next makes no break. -/
theorem exists_cons_of_decodeFrom_some {p : Partial} {bs : List UInt8} {cs : List Char}
    (h : decodeFrom (some p) bs = cs.map some) :
    ∃ b rest, bs = b :: rest ∧ p.low ≤ b.toNat ∧ b.toNat ≤ p.high := by
  cases bs with
  | nil =>
      cases cs with
      | nil => cases h
      | cons c cs => cases h
  | cons b rest =>
      refine ⟨b, rest, rfl, ?_⟩
      by_contra hb
      rw [decodeFrom, next] at h
      dsimp only at h
      rw [if_neg hb] at h
      cases cs with
      | nil => cases h
      | cons c cs => cases h

section Open

variable {code more low high : Nat} {bs : List UInt8} {cs : List Char}

/-- An open character that is owed more than one octet is still open behind the next one. -/
theorem decodeFrom_more (h : decodeFrom (some ⟨code, more + 1, low, high⟩) bs = cs.map some) :
    ∃ b rest, bs = b :: rest ∧ low ≤ b.toNat ∧ b.toNat ≤ high ∧
      decodeFrom (some ⟨64 * code + (b.toNat - 0x80), more, 0x80, 0xBF⟩) rest = cs.map some := by
  obtain ⟨b, rest, rfl, lo, hi⟩ := exists_cons_of_decodeFrom_some h
  exact ⟨b, rest, rfl, lo, hi, by rwa [decodeFrom_some_cons lo hi] at h⟩

/-- An open character that is owed one octet ends with it. -/
theorem decodeFrom_last (h : decodeFrom (some ⟨code, 0, low, high⟩) bs = cs.map some) :
    ∃ b rest cs', bs = b :: rest ∧ low ≤ b.toNat ∧ b.toNat ≤ high ∧
      cs = Char.ofNat (64 * code + (b.toNat - 0x80)) :: cs' ∧ decode rest = cs'.map some := by
  obtain ⟨b, rest, rfl, lo, hi⟩ := exists_cons_of_decodeFrom_some h
  rw [decodeFrom_some_cons lo hi] at h
  obtain ⟨c, cs', rfl, hc, hrest⟩ := List.map_eq_cons_iff.1 h.symm
  exact ⟨b, rest, cs', rfl, lo, hi, by rw [Option.some.inj hc], hrest.symm⟩

end Open

/-- **Octets without a break** are those of the text that they are decoded to. -/
theorem encode_of_decode {bs : List UInt8} {cs : List Char} (h : decode bs = cs.map some) :
    encode cs = bs := by
  induction hn : bs.length using Nat.strongRecOn generalizing bs cs with
  | ind n ih =>
  subst hn
  cases bs with
  | nil =>
      obtain rfl : cs = [] := List.map_eq_nil_iff.1 h.symm
      rfl
  | cons b₁ bs =>
      rw [decode, decodeFrom_none_cons] at h
      rcases first_cases b₁ with h₁ | ⟨lo₁, hi₁⟩ | ⟨lo₁, hi₁⟩ | ⟨lo₁, hi₁⟩ | hbreak
      · have hfirst : first b₁ = ([some (Char.ofNat b₁.toNat)], none) := by
          simp only [first]
          rw [if_pos h₁]
        rw [hfirst] at h
        obtain ⟨c, cs, rfl, hc, hrest⟩ := List.map_eq_cons_iff.1 h.symm
        obtain rfl := Option.some.inj hc
        rw [encode_cons, utf8EncodeChar_ofNat (.inl (by omega)), if_pos (by omega),
          UInt8.ofNat_toNat, ih _ (by simp) hrest.symm rfl]
        rfl
      · rw [first_eq_two lo₁ hi₁] at h
        obtain ⟨b₂, bs, cs, rfl, lo₂, hi₂, rfl, hrest⟩ := decodeFrom_last h
        have hlt : bs.length < (b₁ :: b₂ :: bs).length := by
          simp only [List.length_cons]
          omega
        rw [encode_cons, utf8EncodeChar_two rfl lo₁ hi₁ lo₂ hi₂, ih _ hlt hrest rfl]
        rfl
      · rw [first_eq_three lo₁ hi₁] at h
        obtain ⟨b₂, bs, rfl, lo₂, hi₂, h⟩ := decodeFrom_more h
        obtain ⟨b₃, bs, cs, rfl, lo₃, hi₃, rfl, hrest⟩ := decodeFrom_last h
        have hlt : bs.length < (b₁ :: b₂ :: b₃ :: bs).length := by
          simp only [List.length_cons]
          omega
        rw [encode_cons, utf8EncodeChar_three rfl lo₁ hi₁ lo₂ hi₂ lo₃ hi₃, ih _ hlt hrest rfl]
        rfl
      · rw [first_eq_four lo₁ hi₁] at h
        obtain ⟨b₂, bs, rfl, lo₂, hi₂, h⟩ := decodeFrom_more h
        obtain ⟨b₃, bs, rfl, lo₃, hi₃, h⟩ := decodeFrom_more h
        obtain ⟨b₄, bs, cs, rfl, lo₄, hi₄, rfl, hrest⟩ := decodeFrom_last h
        have hlt : bs.length < (b₁ :: b₂ :: b₃ :: b₄ :: bs).length := by
          simp only [List.length_cons]
          omega
        rw [encode_cons, utf8EncodeChar_four rfl lo₁ hi₁ lo₂ hi₂ lo₃ hi₃ lo₄ hi₄,
          ih _ hlt hrest rfl]
        rfl
      · rw [hbreak] at h
        cases cs with
        | nil => cases h
        | cons c cs => cases h

theorem eq_map_some_of_mapM_id {xs : List (Option Char)} {cs : List Char}
    (h : xs.mapM id = some cs) : xs = cs.map some := by
  induction xs generalizing cs with
  | nil =>
      cases h
      rfl
  | cons x xs ih =>
      obtain ⟨c, hc, hbind⟩ := Option.bind_eq_some_iff.1 (List.mapM_cons.symm.trans h)
      obtain ⟨ds, hds, hcons⟩ := Option.bind_eq_some_iff.1 hbind
      obtain rfl : x = some c := hc
      obtain rfl : c :: ds = cs := Option.some.inj hcons
      rw [ih hds, List.map_cons]

theorem decode?_eq_some_iff {bs : List UInt8} {s : String} :
    decode? bs = some s ↔ encode s.toList = bs := by
  constructor
  · intro h
    obtain ⟨cs, hcs, rfl⟩ := Option.map_eq_some_iff.1 h
    rw [String.toList_ofList, encode_of_decode (eq_map_some_of_mapM_id hcs)]
  · rintro rfl
    exact decode?_encode s

/-- The octets of a character of the second half are of the second half. -/
theorem le_of_mem_utf8EncodeChar {c : Char} (h : 0x80 ≤ c.toNat) :
    ∀ b ∈ String.utf8EncodeChar c, 0x80 ≤ b.toNat := by
  have hv : c.toNat < 0x110000 := by
    rcases c.valid with h | h
    · exact Nat.lt_trans h (by decide)
    · exact h.2
  simp only [String.utf8EncodeChar, Char.toNat_val]
  generalize c.toNat = v at h hv
  split
  · omega
  split
  · simp only [List.forall_mem_cons, UInt8.toNat_ofNat']
    exact ⟨by omega, by omega, by simp⟩
  split
  · simp only [List.forall_mem_cons, UInt8.toNat_ofNat']
    exact ⟨by omega, by omega, by omega, by simp⟩
  · simp only [List.forall_mem_cons, UInt8.toNat_ofNat']
    exact ⟨by omega, by omega, by omega, by omega, by simp⟩

/-- An octet of the first half that starts a text is its first character. -/
theorem exists_cons_of_encode_eq_cons {cs : List Char} {b : UInt8} {bs : List UInt8}
    (h : encode cs = b :: bs) (hb : b.toNat < 0x80) :
    ∃ c cs', cs = c :: cs' ∧ c.toNat = b.toNat ∧ encode cs' = bs := by
  cases cs with
  | nil => cases h
  | cons c cs =>
      refine ⟨c, cs, rfl, ?_⟩
      rw [encode_cons] at h
      by_cases hc : c.toNat < 0x80
      · rw [utf8EncodeChar_of_lt hc, List.singleton_append] at h
        obtain ⟨rfl, hrest⟩ := List.cons.inj h
        exact ⟨by rw [UInt8.toNat_ofNat']; omega, hrest⟩
      · have hhigh := le_of_mem_utf8EncodeChar (Nat.le_of_not_lt hc)
        cases hoctets : String.utf8EncodeChar c with
        | nil => exact absurd hoctets String.utf8EncodeChar_ne_nil
        | cons octet octets =>
            rw [hoctets, List.cons_append] at h
            obtain ⟨rfl, -⟩ := List.cons.inj h
            exact absurd (hhigh octet (by simp [hoctets])) (Nat.not_le_of_lt hb)

end Utf8

/-! ### Percent encoding that changes nothing -/

namespace Percent

/-- Whether a character is a hexadecimal digit, of either case. -/
def isHexDigit (c : Char) : Bool :=
  c.isDigit || ('A' ≤ c && c ≤ 'F') || ('a' ≤ c && c ≤ 'f')

/-- Somewhere in a text, a percent sign has two hexadecimal digits behind it. -/
def HasGroup (cs : List Char) : Prop :=
  ∃ high low, isHexDigit high = true ∧ isHexDigit low = true ∧ ['%', high, low] <:+: cs

theorem isSome_hexValue?_iff {b : UInt8} :
    (hexValue? b).isSome = true ↔ (0x30 ≤ b.toNat ∧ b.toNat ≤ 0x39) ∨
      (0x41 ≤ b.toNat ∧ b.toNat ≤ 0x46) ∨ 0x61 ≤ b.toNat ∧ b.toNat ≤ 0x66 := by
  simp only [hexValue?, UInt8.le_iff_toNat_le, UInt8.reduceToNat]
  split
  next hdigit => simp [hdigit]
  next hdigit =>
    split
    next hupper => simp [hupper]
    next hupper => split <;> simp_all

theorem isHexDigit_iff {c : Char} :
    isHexDigit c = true ↔ (0x30 ≤ c.toNat ∧ c.toNat ≤ 0x39) ∨
      (0x41 ≤ c.toNat ∧ c.toNat ≤ 0x46) ∨ 0x61 ≤ c.toNat ∧ c.toNat ≤ 0x66 := by
  simp [isHexDigit, Char.isDigit, Char.le_def, UInt32.le_iff_toNat_le, or_assoc]

/-- The digits among the characters are those among the octets. -/
theorem isSome_hexValue?_iff_isHexDigit {b : UInt8} {c : Char} (h : c.toNat = b.toNat) :
    (hexValue? b).isSome = true ↔ isHexDigit c = true := by
  rw [isSome_hexValue?_iff, isHexDigit_iff, h]

theorem toNat_lt_of_isSome {b : UInt8} (h : (hexValue? b).isSome = true) : b.toNat < 0x80 := by
  rcases isSome_hexValue?_iff.1 h with h | h | h <;> omega

theorem isSome_pairValue? (high low : UInt8) :
    (pairValue? high low).isSome = ((hexValue? high).isSome && (hexValue? low).isSome) := by
  unfold pairValue?
  cases hexValue? high <;> cases hexValue? low <;> rfl

theorem length_decode_le (bs : List UInt8) : (decode bs).length ≤ bs.length := by
  fun_induction decode bs with
  | case1 octet high low rest value _ ih => simp; omega
  | case2 octet high low rest _ ih => simpa using ih
  | case3 => exact Nat.le_refl _

theorem decode_group {high low value : UInt8} (h : pairValue? high low = some value)
    (rest : List UInt8) : decode (sign :: high :: low :: rest) = value :: decode rest := by
  rw [decode, if_pos rfl, h]

/-- An octet that starts no group stands for itself. -/
theorem decode_cons {b : UInt8} {bs : List UInt8}
    (h : b = sign → ∀ high low rest, bs = high :: low :: rest → pairValue? high low = none) :
    decode (b :: bs) = b :: decode bs := by
  match bs, h with
  | [], _ => rfl
  | [_], _ => rfl
  | high :: low :: rest, h =>
      rw [decode]
      split
      next value hvalue =>
        split at hvalue
        next hsign => simp [h hsign high low rest rfl] at hvalue
        · cases hvalue
      · rfl

/-- What is left of octets that are decoded to themselves is decoded to itself. -/
theorem decode_eq_self_of_cons {b : UInt8} {bs : List UInt8} (h : decode (b :: bs) = b :: bs) :
    decode bs = bs := by
  match bs, h with
  | [], _ => rfl
  | [_], _ => rfl
  | high :: low :: rest, h =>
      rw [decode] at h
      split at h
      · have hlength := congrArg List.length h
        have hle := length_decode_le rest
        simp only [List.length_cons] at hlength
        omega
      · exact (List.cons.inj h).2

theorem decode_eq_self_of_append {xs ys : List UInt8} (h : decode (xs ++ ys) = xs ++ ys) :
    decode ys = ys := by
  induction xs with
  | nil => exact h
  | cons x xs ih => exact ih (decode_eq_self_of_cons h)

theorem decode_append_of_not_mem {xs : List UInt8} (h : sign ∉ xs) (ys : List UInt8) :
    decode (xs ++ ys) = xs ++ decode ys := by
  induction xs with
  | nil => rfl
  | cons x xs ih =>
      obtain ⟨hx, hxs⟩ := not_or.1 (List.mem_cons.not.1 h)
      rw [List.cons_append, decode_cons fun e => absurd e.symm hx, ih hxs, List.cons_append]

theorem sign_not_mem_utf8EncodeChar {c : Char} (h : c ≠ '%') :
    sign ∉ String.utf8EncodeChar c := by
  intro hmem
  by_cases hc : c.toNat < 0x80
  · rw [Utf8.utf8EncodeChar_of_lt hc, List.mem_singleton] at hmem
    have hvalue : sign.toNat = c.toNat := by
      rw [hmem, UInt8.toNat_ofNat']
      omega
    exact h (Char.toNat_inj.1 hvalue.symm)
  · exact absurd (Utf8.le_of_mem_utf8EncodeChar (Nat.le_of_not_lt hc) sign hmem) (by decide)

/-- Two octets that name an octet are two characters of a text. -/
theorem exists_digits_of_encode_eq {cs : List Char} {high low value : UInt8} {rest : List UInt8}
    (h : Utf8.encode cs = high :: low :: rest) (hvalue : pairValue? high low = some value) :
    ∃ c d cs', cs = c :: d :: cs' ∧ isHexDigit c = true ∧ isHexDigit d = true := by
  have hsome : (pairValue? high low).isSome = true := by rw [hvalue]; rfl
  rw [isSome_pairValue?, Bool.and_eq_true] at hsome
  obtain ⟨c, cs, rfl, hc, hcs⟩ := Utf8.exists_cons_of_encode_eq_cons h (toNat_lt_of_isSome hsome.1)
  obtain ⟨d, cs, rfl, hd, -⟩ := Utf8.exists_cons_of_encode_eq_cons hcs (toNat_lt_of_isSome hsome.2)
  exact ⟨c, d, cs, rfl, (isSome_hexValue?_iff_isHexDigit hc).1 hsome.1,
    (isSome_hexValue?_iff_isHexDigit hd).1 hsome.2⟩

theorem exists_octet_of_isHexDigit {c : Char} (h : isHexDigit c = true) :
    ∃ b value, String.utf8EncodeChar c = [b] ∧ hexValue? b = some value := by
  have hlt : c.toNat < 0x80 := by rcases isHexDigit_iff.1 h with h | h | h <;> omega
  have hvalue : c.toNat = (UInt8.ofNat c.toNat).toNat := by
    rw [UInt8.toNat_ofNat']
    omega
  obtain ⟨value, hsome⟩ :=
    Option.isSome_iff_exists.1 ((isSome_hexValue?_iff_isHexDigit hvalue).2 h)
  exact ⟨_, value, Utf8.utf8EncodeChar_of_lt hlt, hsome⟩

/-- A text that starts with a group is decoded to fewer octets. -/
theorem length_decode_lt_of_group {c d : Char} (hc : isHexDigit c = true)
    (hd : isHexDigit d = true) (cs : List Char) :
    (decode (Utf8.encode ('%' :: c :: d :: cs))).length <
      (Utf8.encode ('%' :: c :: d :: cs)).length := by
  obtain ⟨high, h, hhigh, hhighValue⟩ := exists_octet_of_isHexDigit hc
  obtain ⟨low, l, hlow, hlowValue⟩ := exists_octet_of_isHexDigit hd
  have hvalue : pairValue? high low = some (16 * h + l) := by
    rw [pairValue?, hhighValue, hlowValue]
    rfl
  rw [Utf8.encode_cons, Utf8.encode_cons, Utf8.encode_cons, hhigh, hlow]
  show (decode (sign :: high :: low :: Utf8.encode cs)).length <
    (sign :: high :: low :: Utf8.encode cs).length
  rw [decode_group hvalue]
  have hle := length_decode_le (Utf8.encode cs)
  simp only [List.length_cons]
  omega

/-- **Percent encoding leaves a text alone** unless there is a group in it. -/
theorem decode_encode_eq_self_iff {cs : List Char} :
    decode (Utf8.encode cs) = Utf8.encode cs ↔ ¬ HasGroup cs := by
  constructor
  · rintro h ⟨high, low, hhigh, hlow, front, back, rfl⟩
    rw [List.append_assoc, Utf8.encode_append] at h
    have hlt := length_decode_lt_of_group hhigh hlow back
    exact absurd (congrArg List.length (decode_eq_self_of_append h)) (Nat.ne_of_lt hlt)
  · intro h
    induction cs with
    | nil => rfl
    | cons c cs ih =>
        have hcs : decode (Utf8.encode cs) = Utf8.encode cs := by
          refine ih fun ⟨high, low, hhigh, hlow, hgroup⟩ => h ⟨high, low, hhigh, hlow, ?_⟩
          exact hgroup.trans (List.suffix_cons c cs).isInfix
        rw [Utf8.encode_cons]
        by_cases hc : c = '%'
        · subst hc
          show decode (sign :: Utf8.encode cs) = sign :: Utf8.encode cs
          rw [decode_cons fun _ high low rest hrest => ?_, hcs]
          by_contra hvalue
          obtain ⟨value, hvalue⟩ := Option.ne_none_iff_exists'.1 hvalue
          obtain ⟨c, d, cs', rfl, hhigh, hlow⟩ := exists_digits_of_encode_eq hrest hvalue
          exact h ⟨c, d, hhigh, hlow, [], cs', rfl⟩
        · rw [decode_append_of_not_mem (sign_not_mem_utf8EncodeChar hc), hcs]

instance (cs : List Char) : Decidable (HasGroup cs) :=
  decidable_of_iff (decode (Utf8.encode cs) ≠ Utf8.encode cs)
    (by rw [ne_eq, decode_encode_eq_self_iff, not_not])

end Percent

/-! ### Names -/

namespace Playground

/-- A name comes from a segment of at least as many octets. -/
theorem length_encode_le {segment : List Char} {name : String}
    (h : sessionName? segment = some name) :
    (Utf8.encode name.toList).length ≤ (Utf8.encode segment).length := by
  rw [Utf8.decode?_eq_some_iff.1 h]
  exact Percent.length_decode_le _

/-- **A beginning of a name** is decoded to the name only if it is all of it and has no group in
it. -/
theorem sessionName?_of_prefix_iff {segment : List Char} {name : String}
    (h : segment <+: name.toList) :
    sessionName? segment = some name ↔
      segment = name.toList ∧ ¬ Percent.HasGroup name.toList := by
  constructor
  · intro hname
    obtain ⟨rest, hrest⟩ := h
    have hle := length_encode_le hname
    rw [← hrest, Utf8.encode_append, List.length_append] at hle
    have hnil : rest = [] := by
      cases rest with
      | nil => rfl
      | cons c cs =>
          have hpos := List.length_pos_of_ne_nil (String.utf8EncodeChar_ne_nil (c := c))
          rw [Utf8.encode_cons, List.length_append] at hle
          omega
    rw [hnil, List.append_nil] at hrest
    subst hrest
    exact ⟨rfl, Percent.decode_encode_eq_self_iff.1 (Utf8.decode?_eq_some_iff.1 hname).symm⟩
  · rintro ⟨rfl, hgroup⟩
    rw [sessionName?, Percent.decode_encode_eq_self_iff.2 hgroup, Utf8.decode?_encode]

end Playground

end GridLang
