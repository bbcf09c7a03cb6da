import GridLang.CommandLine.Seed
import GridLang.Grid.Editor
import GridLang.Proofs.TypedText

/-!
# GridLang.Proofs.WrittenAddresses

**Addresses are read back from the two texts that hold them**: the name of a field, and a cell that
is given on the command line. Both are cut at the first separator, and no numeral holds one
(`Numeral.Unsigned.isDigit_of_mem`), so no number is cut in two. Behind the last separator of a cell
stands its value, which may hold any character.

* `Address.ofFieldName?_eq_some_iff` and `CommandLine.readSeed_eq_ok_iff` say which texts are
  accepted, and what they stand for.
* `Address.ofFieldName?_fieldName` and `CommandLine.readSeed_written` are their cases for the
  numerals that are written, put together in `Address.read_back`.
-/

namespace GridLang

/-! ### Separators are in no numeral -/

namespace Numeral

/-- The only character of a numeral that is no digit is its sign. -/
theorem Unsigned.isDigit_of_mem {cs : List Char} {n : Nat} {c : Char} (h : Unsigned cs n)
    (hc : c ∈ cs) : c = '+' ∨ c.isDigit = true := by
  cases h with
  | digits hd => exact .inr (hd.2 c hc)
  | plus hd =>
      rcases List.mem_cons.1 hc with rfl | hc
      · exact .inl rfl
      · exact .inr (hd.2 c hc)

theorem Unsigned.not_mem {cs : List Char} {n : Nat} {c : Char} (h : Unsigned cs n)
    (hplus : c ≠ '+') (hdigit : c.isDigit = false) : c ∉ cs := by
  intro hc
  rcases h.isDigit_of_mem hc with heq | hd
  · exact hplus heq
  · rw [hdigit] at hd
    cases hd

/-- Nor is there another one in the blanks around it. -/
theorem Unsigned.not_mem_of_trim {s : String} {n : Nat} {c : Char}
    (h : Unsigned (Text.trim s).toList n) (hplus : c ≠ '+') (hdigit : c.isDigit = false)
    (hblank : Text.isBlank c = false) : c ∉ s.toList := by
  obtain ⟨before, after, hs, hblanks⟩ := (Text.trims_trim s).exists_blanks
  have hends : c ∉ before ++ after := by
    intro hc
    rw [hblanks c hc] at hblank
    cases hblank
  rw [List.mem_append, not_or] at hends
  simp only [hs, List.mem_append, not_or]
  exact ⟨⟨hends.1, h.not_mem hplus hdigit⟩, hends.2⟩

theorem trim_ofUInt64 (n : UInt64) : Text.trim (ofUInt64 n) = ofUInt64 n := by
  have hblank : ∀ c ∈ (ofUInt64 n).toList, Text.isBlank c = false :=
    fun c hc => Text.isBlank_of_isDigit (isDigit_of_mem_ofUInt64 hc)
  exact Text.trim_eq_self (fun c hc => hblank c (List.mem_of_mem_head? hc))
    fun c hc => hblank c (List.mem_of_mem_getLast? hc)

theorem toOption_readUInt64_eq_some_iff {cs : List Char} {n : UInt64} :
    (readUInt64 cs).toOption = some n ↔ Unsigned cs n.toNat := by
  rw [← readUInt64_eq_ok_iff]
  cases readUInt64 cs <;> simp [Except.toOption]

end Numeral

/-! ### Names of fields -/

namespace Address

/-- **The names of fields for places**: the mark, and two numerals with a hyphen between them. -/
theorem ofFieldName?_eq_some_iff {name : String} {a : Address} :
    ofFieldName? name = some a ↔ ∃ row col : String, name = "cell-" ++ row ++ "-" ++ col ∧
      Numeral.Unsigned row.toList a.row.toNat ∧ Numeral.Unsigned col.toList a.col.toNat := by
  simp only [ofFieldName?, Option.bind_eq_bind, Option.bind_eq_some_iff, Prod.exists,
    Numeral.toOption_readUInt64_eq_some_iff, List.isPrefixOf?_eq_some_iff_append_eq,
    Text.cut_eq_some_iff]
  constructor
  · intro h
    obtain ⟨numbers, hname, row, col, ⟨rfl, -⟩, r, hrow, c, hcol, ha⟩ := h
    cases ha
    refine ⟨String.ofList row, String.ofList col, ?_, by simpa using hrow, by simpa using hcol⟩
    rw [← String.toList_inj, ← hname]
    simp [fieldMark]
  · intro h
    obtain ⟨row, col, rfl, hrow, hcol⟩ := h
    exact ⟨row.toList ++ '-' :: col.toList, by simp [fieldMark], row.toList, col.toList,
      ⟨rfl, hrow.not_mem (by decide) rfl⟩, a.row, hrow, a.col, hcol, rfl⟩

/-- The place that a field is for is read back from its name. -/
theorem ofFieldName?_fieldName (a : Address) : ofFieldName? a.fieldName = some a :=
  ofFieldName?_eq_some_iff.2 ⟨Numeral.ofUInt64 a.row, Numeral.ofUInt64 a.col, rfl,
    Numeral.unsigned_ofUInt64 a.row, Numeral.unsigned_ofUInt64 a.col⟩

end Address

/-! ### Cells that are given -/

namespace CommandLine

/-- **The cells that are given**: a row and a column with a comma between them, each a numeral with
blanks around it or not, and behind an equals sign any text as the value. -/
theorem readSeed_eq_ok_iff {given : String} {a : Address} {c : Cell} :
    readSeed given = .ok (a, c) ↔ ∃ row col value : String,
      given = row ++ "," ++ col ++ "=" ++ value ∧
      Numeral.Unsigned (Text.trim row).toList a.row.toNat ∧
      Numeral.Unsigned (Text.trim col).toList a.col.toNat ∧ c = Cell.ofTyped value := by
  constructor
  · intro h
    unfold readSeed at h
    split at h
    · cases h
    next address value hvalue =>
      split at h
      · cases h
      next row col haddress =>
        dsimp only at h
        split at h
        · cases h
        next r hrow =>
          split at h
          · cases h
          next s hcol =>
            cases h
            obtain ⟨hgiven, -⟩ := Text.cut_eq_some_iff.1 hvalue
            obtain ⟨rfl, -⟩ := Text.cut_eq_some_iff.1 haddress
            refine ⟨String.ofList row, String.ofList col, String.ofList value, ?_,
              Numeral.readUInt64_eq_ok_iff.1 hrow, Numeral.readUInt64_eq_ok_iff.1 hcol, rfl⟩
            rw [← String.toList_inj, hgiven]
            simp
  · intro h
    obtain ⟨row, col, value, rfl, hrow, hcol, rfl⟩ := h
    have hequals : '=' ∉ row.toList ++ ',' :: col.toList := by
      simp only [List.mem_append, List.mem_cons, not_or]
      exact ⟨hrow.not_mem_of_trim (by decide) rfl rfl, by decide,
        hcol.not_mem_of_trim (by decide) rfl rfl⟩
    have hvalue : Text.cut '=' (row ++ "," ++ col ++ "=" ++ value).toList =
        some (row.toList ++ ',' :: col.toList, value.toList) :=
      Text.cut_eq_some_iff.2 ⟨by simp, hequals⟩
    have haddress : Text.cut ',' (row.toList ++ ',' :: col.toList) =
        some (row.toList, col.toList) :=
      Text.cut_eq_some_iff.2 ⟨rfl, hrow.not_mem_of_trim (by decide) rfl rfl⟩
    simp only [readSeed, hvalue, haddress, String.ofList_toList,
      Numeral.readUInt64_eq_ok_iff.2 hrow, Numeral.readUInt64_eq_ok_iff.2 hcol]

/-- A cell is read back from the numerals of its place and from its value, whatever that holds. -/
theorem readSeed_written (a : Address) (value : String) :
    readSeed (Numeral.ofUInt64 a.row ++ "," ++ Numeral.ofUInt64 a.col ++ "=" ++ value) =
      .ok (a, Cell.ofTyped value) := by
  refine readSeed_eq_ok_iff.2 ⟨_, _, value, rfl, ?_, ?_, rfl⟩
  · rw [Numeral.trim_ofUInt64]
    exact Numeral.unsigned_ofUInt64 a.row
  · rw [Numeral.trim_ofUInt64]
    exact Numeral.unsigned_ofUInt64 a.col

end CommandLine

/-- **Addresses survive both texts that hold them.** The address of a field is read back from the
name of the field, so no two addresses share a name, and the address of a given cell is read back
from its numerals, whatever the value behind them holds.

Conversely, a name is accepted exactly if two numerals of 64 bits stand behind the mark, with a
hyphen between them, and it is the name for their values. A given cell is accepted exactly if two
numerals stand in front of its value, with blanks around them or not. -/
theorem Address.read_back (row col : UInt64) (value text : String) :
    (ofFieldName? (fieldName ⟨row, col⟩) = some ⟨row, col⟩ ∧
      ∀ a : Address, a.fieldName = fieldName ⟨row, col⟩ ↔ a = ⟨row, col⟩) ∧
    CommandLine.readSeed (Numeral.ofUInt64 row ++ "," ++ Numeral.ofUInt64 col ++ "=" ++ value) =
      .ok (⟨row, col⟩, Cell.ofTyped value) ∧
    (∀ a : Address, ofFieldName? text = some a ↔ ∃ row col : String,
      text = "cell-" ++ row ++ "-" ++ col ∧
      Numeral.Unsigned row.toList a.row.toNat ∧ Numeral.Unsigned col.toList a.col.toNat) ∧
    ∀ (a : Address) (c : Cell), CommandLine.readSeed text = .ok (a, c) ↔
      ∃ row col value : String, text = row ++ "," ++ col ++ "=" ++ value ∧
        Numeral.Unsigned (Text.trim row).toList a.row.toNat ∧
        Numeral.Unsigned (Text.trim col).toList a.col.toNat ∧ c = Cell.ofTyped value := by
  refine ⟨⟨ofFieldName?_fieldName _, fun a => ?_⟩, CommandLine.readSeed_written ⟨row, col⟩ value,
    fun a => ofFieldName?_eq_some_iff, fun a c => CommandLine.readSeed_eq_ok_iff⟩
  constructor
  · intro h
    have hread := ofFieldName?_fieldName a
    rw [h, ofFieldName?_fieldName] at hread
    exact (Option.some.inj hread).symm
  · rintro rfl
    rfl

end GridLang
