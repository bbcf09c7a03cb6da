import Mathlib.Algebra.Group.Int.Defs
import Mathlib.Data.List.DropRight
import GridLang.Cell
import GridLang.Proofs.Numerals

/-!
# GridLang.Proofs.TypedText

**What typed text is converted to.** Only what stays of it without the blanks at its ends counts
(`Text.Trims`): nothing is 0, a numeral whose value fits into 64 bits is its number, and all else is
a text (`Cell.ofTyped_eq_number_iff`, `Cell.ofTyped_eq_text_iff`).

The conversion is stable. A text without blanks at its ends is trimmed to itself
(`Text.trim_eq_self`), a number is read back from what is shown of it (`Cell.ofTyped_shown_number`),
and so the cell that a text was converted to is got again from what that cell shows
(`Cell.ofTyped_shown_ofTyped`).
-/

namespace GridLang

/-! ### Trimmed texts -/

namespace Text

theorem toList_trim (s : String) :
    (trim s).toList = (s.toList.dropWhile isBlank).rdropWhile isBlank := by
  rw [trim, String.toList_ofList]
  rfl

/-- A text without blanks at its ends is trimmed to itself. -/
theorem trim_eq_self {s : String} (hfirst : ∀ c ∈ s.toList.head?, isBlank c = false)
    (hlast : ∀ c ∈ s.toList.getLast?, isBlank c = false) : trim s = s := by
  have hdrop : s.toList.dropWhile isBlank = s.toList := by
    cases hs : s.toList with
    | nil => rfl
    | cons c cs =>
        have hc : isBlank c = false := hfirst c (by rw [hs]; rfl)
        exact List.dropWhile_cons_of_neg (by simp [hc])
  have hrdrop : s.toList.rdropWhile isBlank = s.toList := by
    refine List.rdropWhile_eq_self_iff.2 fun hne => ?_
    have hc : isBlank (s.toList.getLast hne) = false := hlast _ (List.getLast?_eq_some_getLast hne)
    simp [hc]
  rw [← String.toList_inj, toList_trim, hdrop, hrdrop]

theorem head?_trim {s : String} : ∀ c ∈ (trim s).toList.head?, isBlank c = false := by
  intro c hc
  rw [toList_trim] at hc
  -- What is dropped at the end leaves the first character, or none.
  obtain ⟨rest, hrest⟩ := List.rdropWhile_prefix isBlank (s.toList.dropWhile isBlank)
  have hhead := List.head?_dropWhile_not isBlank s.toList
  rw [← hrest] at hhead
  cases hcs : (s.toList.dropWhile isBlank).rdropWhile isBlank with
  | nil => simp [hcs] at hc
  | cons d ds =>
      rw [hcs] at hc hhead
      simp at hc hhead
      rwa [← hc]

theorem getLast?_trim {s : String} : ∀ c ∈ (trim s).toList.getLast?, isBlank c = false := by
  intro c hc
  rw [toList_trim] at hc
  obtain ⟨hne, rfl⟩ := List.mem_getLast?_eq_getLast hc
  simpa using List.rdropWhile_last_not isBlank _ hne

theorem trim_trim (s : String) : trim (trim s) = trim s := trim_eq_self head?_trim getLast?_trim

/-- `core` is what stays of a text without the blanks at its two ends. -/
structure Trims (s core : String) : Prop where
  /-- Nothing but blanks is taken away, and only at the ends. -/
  exists_blanks : ∃ before after, s.toList = before ++ core.toList ++ after ∧
    ∀ c ∈ before ++ after, isBlank c = true
  /-- No blank is left in front. -/
  first_not_blank : ∀ c ∈ core.toList.head?, isBlank c = false
  /-- No blank is left at the end. -/
  last_not_blank : ∀ c ∈ core.toList.getLast?, isBlank c = false

theorem trims_trim (s : String) : Trims s (trim s) where
  exists_blanks := by
    refine ⟨s.toList.takeWhile isBlank, (s.toList.dropWhile isBlank).rtakeWhile isBlank, ?_, ?_⟩
    · rw [toList_trim, List.append_assoc, List.rdropWhile_append_rtakeWhile,
        List.takeWhile_append_dropWhile]
    · intro c hc
      rcases List.mem_append.1 hc with hc | hc
      · exact List.mem_takeWhile_imp hc
      · exact List.mem_rtakeWhile_imp hc
  first_not_blank := head?_trim
  last_not_blank := getLast?_trim

/-- What stays of a text is determined: it is the trimmed text. -/
theorem trims_iff {s core : String} : Trims s core ↔ core = trim s := by
  constructor
  · intro h
    obtain ⟨before, after, hs, hblank⟩ := h.exists_blanks
    have hbefore : ∀ c ∈ before, isBlank c = true :=
      fun c hc => hblank c (List.mem_append_left _ hc)
    have hafter : ∀ c ∈ after, isBlank c = true :=
      fun c hc => hblank c (List.mem_append_right _ hc)
    rw [← trim_eq_self h.first_not_blank h.last_not_blank, ← String.toList_inj, toList_trim,
      toList_trim, hs, List.append_assoc, List.dropWhile_append_of_pos hbefore]
    cases hcore : core.toList with
    | nil => rw [List.nil_append, List.dropWhile_eq_nil_iff.2 hafter, List.dropWhile_nil]
    | cons c cs =>
        have hc : ¬ isBlank c = true := by simp [h.first_not_blank c (by rw [hcore]; rfl)]
        rw [List.cons_append, List.dropWhile_cons_of_neg hc, List.dropWhile_cons_of_neg hc,
          ← List.cons_append, List.rdropWhile, List.rdropWhile, List.reverse_append,
          List.dropWhile_append_of_pos fun d hd => hafter d (List.mem_reverse.1 hd)]
  · rintro rfl
    exact trims_trim s

end Text

/-! ### Numerals as typed text -/

theorem Text.isBlank_of_isDigit {c : Char} (h : c.isDigit = true) : isBlank c = false := by
  have hle : 48 ≤ c.toNat ∧ c.toNat ≤ 57 := Char.isDigit_iff_toNat.1 h
  simp [isBlank, blankRanges]
  omega

theorem Numeral.isBlank_of_mem_ofInt64 {n : Int64} {c : Char} (h : c ∈ (ofInt64 n).toList) :
    Text.isBlank c = false := by
  unfold ofInt64 at h
  split at h
  · rw [String.toList_append, toList_ofNat, List.mem_append] at h
    rcases h with h | h
    · obtain rfl : c = '-' := by simpa using h
      decide
    · exact Text.isBlank_of_isDigit (Nat.isDigit_of_mem_toDigits (by decide) (by decide) h)
  · rw [toList_ofNat] at h
    exact Text.isBlank_of_isDigit (Nat.isDigit_of_mem_toDigits (by decide) (by decide) h)

namespace Cell

theorem ofTyped_of_trim_eq_empty {typed : String} (h : Text.trim typed = "") :
    ofTyped typed = number 0 := by
  rw [ofTyped, h]
  rfl

theorem ofTyped_of_readInt64 {typed : String} {n : Int64}
    (h : Numeral.readInt64 (Text.trim typed).toList = .ok n) : ofTyped typed = number n := by
  have hne : (Text.trim typed).isEmpty = false := by
    rw [Bool.eq_false_iff]
    intro hempty
    rw [String.isEmpty_iff.1 hempty] at h
    cases h
  simp [ofTyped, hne, h]

theorem ofTyped_of_not_readInt64 {typed : String} (hne : Text.trim typed ≠ "")
    (h : ∀ n, Numeral.readInt64 (Text.trim typed).toList ≠ .ok n) :
    ofTyped typed = text (Text.trim typed) := by
  cases hread : Numeral.readInt64 (Text.trim typed).toList with
  | ok n => exact absurd hread (h n)
  | error fault => simp [ofTyped, hne, hread]

/-- A number is got from nothing, which is 0, and from the numerals of its value. -/
theorem ofTyped_eq_number_iff {typed : String} {n : Int64} :
    ofTyped typed = number n ↔
      Text.trim typed = "" ∧ n = 0 ∨ Numeral.Signed (Text.trim typed).toList n.toInt := by
  rw [← Numeral.readInt64_eq_ok_iff]
  constructor
  · intro h
    by_cases hempty : Text.trim typed = ""
    · rw [ofTyped_of_trim_eq_empty hempty] at h
      cases h
      exact .inl ⟨hempty, rfl⟩
    · by_cases hread : ∃ m, Numeral.readInt64 (Text.trim typed).toList = .ok m
      · obtain ⟨m, hm⟩ := hread
        rw [ofTyped_of_readInt64 hm] at h
        cases h
        exact .inr hm
      · rw [ofTyped_of_not_readInt64 hempty fun m hm => hread ⟨m, hm⟩] at h
        cases h
  · rintro (⟨hempty, rfl⟩ | hread)
    · exact ofTyped_of_trim_eq_empty hempty
    · exact ofTyped_of_readInt64 hread

/-- A text is got from all that is neither empty nor a numeral whose value fits into 64 bits. -/
theorem ofTyped_eq_text_iff {typed s : String} :
    ofTyped typed = text s ↔ s = Text.trim typed ∧ s ≠ "" ∧
      ¬ ∃ z, Numeral.Signed s.toList z ∧ -2 ^ 63 ≤ z ∧ z < 2 ^ 63 := by
  have hfits : (∃ z, Numeral.Signed (Text.trim typed).toList z ∧ -2 ^ 63 ≤ z ∧ z < 2 ^ 63) ↔
      ∃ n, Numeral.readInt64 (Text.trim typed).toList = .ok n := by
    simp only [Numeral.readInt64_eq_ok_iff]
    constructor
    · rintro ⟨z, hz, hlo, hhi⟩
      exact ⟨Int64.ofInt z, by rwa [Int64.toInt_ofInt_of_le hlo hhi]⟩
    · rintro ⟨n, hn⟩
      exact ⟨n.toInt, hn, n.le_toInt, n.toInt_lt⟩
  constructor
  · intro h
    have hne : Text.trim typed ≠ "" := by
      intro hempty
      rw [ofTyped_of_trim_eq_empty hempty] at h
      cases h
    have hnot : ¬ ∃ n, Numeral.readInt64 (Text.trim typed).toList = .ok n := by
      rintro ⟨n, hn⟩
      rw [ofTyped_of_readInt64 hn] at h
      cases h
    rw [ofTyped_of_not_readInt64 hne fun n hn => hnot ⟨n, hn⟩] at h
    cases h
    exact ⟨rfl, hne, fun hz => hnot (hfits.1 hz)⟩
  · rintro ⟨rfl, hne, hnot⟩
    exact ofTyped_of_not_readInt64 hne fun n hn => hnot (hfits.2 ⟨n, hn⟩)

/-- A number is read back from what is shown of it. -/
theorem ofTyped_shown_number (n : Int64) : ofTyped (number n).shown = number n := by
  have htrim : Text.trim (Numeral.ofInt64 n) = Numeral.ofInt64 n :=
    Text.trim_eq_self (fun c hc => Numeral.isBlank_of_mem_ofInt64 (List.mem_of_mem_head? hc))
      fun c hc => Numeral.isBlank_of_mem_ofInt64 (List.mem_of_mem_getLast? hc)
  refine ofTyped_of_readInt64 ?_
  rw [shown, htrim]
  exact Numeral.readInt64_ofInt64 n

/-- **Conversion is stable**: what is shown of a converted text is converted to the same cell. -/
theorem ofTyped_shown_ofTyped (typed : String) : ofTyped (ofTyped typed).shown = ofTyped typed := by
  cases h : ofTyped typed with
  | number n => exact ofTyped_shown_number n
  | text s =>
      obtain ⟨rfl, hne, hnot⟩ := ofTyped_eq_text_iff.1 h
      exact ofTyped_eq_text_iff.2 ⟨(Text.trim_trim typed).symm, hne, hnot⟩

/-- **What typed text is converted to.** Let `core` be what stays of a text without the blanks at
its ends. It is converted to a number exactly if nothing stays, and then to 0, or if a numeral of 64
bits stays, and then to its value. In every other case it is converted to the text that stays.

So a number is got again from what is shown of it, and any text is converted for good at once. -/
theorem ofTyped_exact_and_stable (typed : String) :
    (∃ core, (∀ s, Text.Trims typed s ↔ s = core) ∧
      (∀ n : Int64, ofTyped typed = number n ↔
        core = "" ∧ n = 0 ∨ Numeral.Signed core.toList n.toInt) ∧
      ∀ s, ofTyped typed = text s ↔ s = core ∧ core ≠ "" ∧
        ¬ ∃ z, Numeral.Signed core.toList z ∧ -2 ^ 63 ≤ z ∧ z < 2 ^ 63) ∧
    (∀ n : Int64, ofTyped (number n).shown = number n) ∧
    ofTyped (ofTyped typed).shown = ofTyped typed := by
  refine ⟨⟨Text.trim typed, fun s => Text.trims_iff, fun n => ofTyped_eq_number_iff, fun s => ?_⟩,
    ofTyped_shown_number, ofTyped_shown_ofTyped typed⟩
  rw [ofTyped_eq_text_iff]
  constructor
  · rintro ⟨rfl, h⟩
    exact ⟨rfl, h⟩
  · rintro ⟨rfl, h⟩
    exact ⟨rfl, h⟩

/-- The smallest number, with blanks around it and a zero in front; the number below it; a sign that
stands alone. -/
example : ofTyped "\u3000-09223372036854775808\t" = number (-9223372036854775808) ∧
    ofTyped "-9223372036854775809" = text "-9223372036854775809" ∧
    ofTyped " + 1 " = text "+ 1" := by decide +kernel

end Cell

end GridLang
