import GridLang.Script.Reader

/-!
# GridLang.Proofs.Grammar

**The grammar of scripts as a relation**, and its agreement with the reader.

`Spelled` says of an operand, an instruction, a program and a script which tokens may stand for
it. It is a relation and no function, since a text operand has two spellings: between quotes, and
as a name. The main result is `ofTokens_eq_ok_iff`: the reader makes a script of some tokens
exactly if the tokens, wherever they stand, spell that script.

* Soundness is carried by `Reader.Consumed`, which says of a reader what it has been fed; every
  token that the reader takes keeps it (`Consumed.feed`).
* Completeness feeds the reader the spelling of one instruction, of a body and of a definition in
  turn. The name of a definition is checked at its end, where the names of a script are distinct.
-/

namespace GridLang

/-! ### Spellings -/

/-- Each element has a spelling, and `ts` are these spellings one after another. -/
inductive InTurn {α : Type} (Spells : α → List Token → Prop) : List α → List Token → Prop
  | nil : InTurn Spells [] []
  | cons {a : α} {as : List α} {ts us : List Token} :
      Spells a ts → InTurn Spells as us → InTurn Spells (a :: as) (ts ++ us)

/-- A token stands for an operand. -/
inductive Operand.Spelled : Operand → Token → Prop
  | cell (a : Address) : Spelled (.cell a) (.cell a)
  | number (n : Int64) : Spelled (.number n) (.integer n)
  | string (s : String) : Spelled (.text s) (.string s)
  | identifier (s : String) : Spelled (.text s) (.identifier s)

/-- Tokens stand for an instruction. -/
inductive Instruction.Spelled : Instruction → List Token → Prop
  | write {value : Operand} {t : Token} (a : Address) : value.Spelled t →
      Spelled (.write a value) [.keyword .write, .cell a, .assign, t]
  | call (target : String) : Spelled (.call target) [.keyword .call, .identifier target]
  | callIf {left right : Operand} {l r : Token} (c : Comparator) (target : String) :
      left.Spelled l → right.Spelled r →
      Spelled (.callIf ⟨left, c, right⟩ target)
        [.keyword .callIf, l, .comparator c, r, .comma, .identifier target]

/-- Tokens stand for the definition of a program. -/
inductive Program.Spelled : Program → List Token → Prop
  | intro {name : String} {body : Array Instruction} {ts : List Token} :
      InTurn Instruction.Spelled body.toList ts →
      Spelled ⟨name, body⟩
        ([.keyword .program, .identifier name] ++ ts ++ [.keyword .programEnd])

/-- Tokens stand for a script: they define its programs, in their order. -/
def Script.Spelled (s : Script) (ts : List Token) : Prop :=
  InTurn Program.Spelled s.programs.toList ts

namespace InTurn

variable {α : Type} {Spells : α → List Token → Prop}

theorem single {a : α} {ts : List Token} (h : Spells a ts) : InTurn Spells [a] ts := by
  rw [← List.append_nil ts]
  exact .cons h .nil

theorem append {as bs : List α} {ts us : List Token} (h : InTurn Spells as ts)
    (h' : InTurn Spells bs us) : InTurn Spells (as ++ bs) (ts ++ us) := by
  induction h with
  | nil => exact h'
  | cons ha _ ih =>
      rw [List.cons_append, List.append_assoc]
      exact .cons ha ih

/-- One more element at the end of an array. -/
theorem push {as : Array α} {a : α} {ts us : List Token} (h : InTurn Spells as.toList ts)
    (ha : Spells a us) : InTurn Spells (as.push a).toList (ts ++ us) := by
  rw [Array.toList_push]
  exact h.append (single ha)

end InTurn

/-! ### What a reader has consumed -/

theorem Operand.spelled_of_ofToken? {t : Token} {o : Operand} (h : ofToken? t = some o) :
    o.Spelled t := by
  cases t <;> cases h
  · exact .cell _
  · exact .string _
  · exact .number _
  · exact .identifier _

theorem Operand.Spelled.ofToken? {t : Token} {o : Operand} (h : o.Spelled t) :
    Operand.ofToken? t = some o := by
  cases h <;> rfl

/-- The tokens of an unfinished instruction behind which `expected` has to come. -/
inductive Expected.Consumed : Expected → List Token → Prop
  | instruction : Consumed .instruction []
  | address : Consumed .address [.keyword .write]
  | assign (a : Address) : Consumed (.assign a) [.keyword .write, .cell a]
  | value (a : Address) : Consumed (.value a) [.keyword .write, .cell a, .assign]
  | leftOperand : Consumed .leftOperand [.keyword .callIf]
  | comparator {left : Operand} {l : Token} : left.Spelled l →
      Consumed (.comparator left) [.keyword .callIf, l]
  | rightOperand {left : Operand} {l : Token} (c : Comparator) : left.Spelled l →
      Consumed (.rightOperand left c) [.keyword .callIf, l, .comparator c]
  | comma {left right : Operand} {l r : Token} (c : Comparator) :
      left.Spelled l → right.Spelled r →
      Consumed (.comma ⟨left, c, right⟩) [.keyword .callIf, l, .comparator c, r]
  | target : Consumed (.target none) [.keyword .call]
  | conditionalTarget {left right : Operand} {l r : Token} (c : Comparator) :
      left.Spelled l → right.Spelled r →
      Consumed (.target (some ⟨left, c, right⟩)) [.keyword .callIf, l, .comparator c, r, .comma]

/-- The tokens that bring the reader from its start to a state. -/
inductive Reader.Consumed : Reader → List Token → Prop
  | between {script : Script} {ts : List Token} : script.Spelled ts → Consumed (.between script) ts
  | opened {script : Script} {ts : List Token} : script.Spelled ts →
      Consumed (.opened script) (ts ++ [.keyword .program])
  | inside {script : Script} {draft : Draft} {ts us vs : List Token} : script.Spelled ts →
      InTurn Instruction.Spelled draft.body.toList us → draft.expected.Consumed vs →
      Consumed (.inside script draft)
        (ts ++ ([.keyword .program, .identifier draft.name] ++ us ++ vs))

namespace Expected

/-- A token after which the instruction goes on. -/
theorem Consumed.goOn {expected next : Expected} {t : Token} {ts : List Token}
    (h : expected.Consumed ts) (ht : expected.take t = .ok (.goOn next)) :
    next.Consumed (ts ++ [t]) := by
  cases h with
  | instruction =>
      dsimp only [take] at ht
      split at ht <;> cases ht
      · exact .address
      · exact .target
      · exact .leftOperand
  | address =>
      dsimp only [take] at ht
      split at ht <;> cases ht
      exact .assign _
  | assign a =>
      dsimp only [take] at ht
      split at ht <;> cases ht
      exact .value a
  | value a =>
      dsimp only [take] at ht
      split at ht <;> cases ht
  | leftOperand =>
      dsimp only [take] at ht
      split at ht <;> cases ht
      next ho => exact .comparator (Operand.spelled_of_ofToken? ho)
  | comparator hl =>
      dsimp only [take] at ht
      split at ht <;> cases ht
      exact .rightOperand _ hl
  | rightOperand c hl =>
      dsimp only [take] at ht
      split at ht <;> cases ht
      next ho => exact .comma c hl (Operand.spelled_of_ofToken? ho)
  | comma c hl hr =>
      dsimp only [take] at ht
      split at ht <;> cases ht
      exact .conditionalTarget c hl hr
  | target =>
      dsimp only [take] at ht
      split at ht <;> cases ht
  | conditionalTarget c hl hr =>
      dsimp only [take] at ht
      split at ht <;> cases ht

/-- A token that completes the instruction. -/
theorem Consumed.complete {expected : Expected} {i : Instruction} {t : Token} {ts : List Token}
    (h : expected.Consumed ts) (ht : expected.take t = .ok (.instruction i)) :
    i.Spelled (ts ++ [t]) := by
  cases h with
  | value a =>
      dsimp only [take] at ht
      split at ht <;> cases ht
      next ho => exact .write a (Operand.spelled_of_ofToken? ho)
  | target =>
      dsimp only [take] at ht
      split at ht <;> cases ht
      exact .call _
  | conditionalTarget c hl hr =>
      dsimp only [take] at ht
      split at ht <;> cases ht
      exact .callIf c _ hl hr
  | _ =>
      dsimp only [take] at ht
      split at ht <;> cases ht

/-- A definition is closed where an instruction could start, and by its keyword. -/
theorem eq_of_take_eq_programEnd {expected : Expected} {t : Token}
    (ht : expected.take t = .ok .programEnd) :
    expected = .instruction ∧ t = .keyword .programEnd := by
  cases expected with
  | instruction =>
      dsimp only [take] at ht
      split at ht <;> cases ht
      exact ⟨rfl, rfl⟩
  | _ =>
      dsimp only [take] at ht
      split at ht <;> cases ht

end Expected

/-! ### Adding a program -/

theorem Script.programs_of_insert {s s' : Script} {p : Program} (h : s.insert p = .ok s') :
    s'.programs = s.programs.push p := by
  unfold insert at h
  split at h
  · cases h
  · cases h
    rfl

theorem Script.mem_index_iff {s : Script} {name : String} : name ∈ s.index ↔ name ∈ s.names := by
  have h := s.contains_iff name
  simpa [contains, names] using h

/-- A program is added exactly if its name is not taken. -/
theorem Script.exists_insert_iff {s : Script} {p : Program} :
    (∃ s', s.insert p = .ok s') ↔ p.name ∉ s.names := by
  rw [← mem_index_iff]
  unfold insert
  split
  next h => simp [h]
  next h => simp [h]

/-- Otherwise it is handed back as it is. -/
theorem Script.insert_eq_error_iff {s : Script} {p q : Program} :
    s.insert p = .error q ↔ q = p ∧ p.name ∈ s.names := by
  rw [← mem_index_iff]
  unfold insert
  split
  next h => simp [h, eq_comm]
  next h => simp [h]

/-! ### Soundness -/

namespace Reader

/-- **One token.** A reader that takes a token has then consumed it too. -/
theorem Consumed.feed {r r' : Reader} {t : LocatedToken} {ts : List Token} (h : r.Consumed ts)
    (ht : r.feed t = .ok r') : r'.Consumed (ts ++ [t.token]) := by
  cases h with
  | between hs =>
      dsimp only [Reader.feed] at ht
      split at ht <;> cases ht
      next ho =>
        rw [ho]
        exact .opened hs
  | @opened script ts hs =>
      dsimp only [Reader.feed] at ht
      split at ht <;> cases ht
      next name ho =>
        rw [ho, List.append_assoc]
        exact @Consumed.inside script ⟨name, t.position, #[], .instruction⟩ _ [] [] hs .nil
          .instruction
  | @inside script draft ts us vs hs hb he =>
      dsimp only [Reader.feed] at ht
      rw [List.append_assoc]
      split at ht
      · cases ht
      next expected hg =>
        cases ht
        rw [List.append_assoc _ vs]
        exact .inside hs hb (he.goOn hg)
      next i hi =>
        cases ht
        have hb' := hb.push (he.complete hi)
        have h := @Consumed.inside script
          { draft with body := draft.body.push i, expected := .instruction } _ _ _ hs hb'
          .instruction
        simpa only [List.append_assoc, List.append_nil] using h
      next hend =>
        obtain ⟨hexp, htok⟩ := Expected.eq_of_take_eq_programEnd hend
        rw [hexp] at he
        cases he
        split at ht
        next s' hins =>
          cases ht
          refine .between ?_
          rw [Script.Spelled, Script.programs_of_insert hins, htok, List.append_nil]
          exact InTurn.push hs (.intro hb)
        · cases ht

/-- What a reader takes is consumed behind what it had consumed before. -/
theorem Consumed.feedAll {r r' : Reader} {us : List Token} {ts : List LocatedToken}
    (h : r.Consumed us) (ht : r.feedAll ts = .ok r') :
    r'.Consumed (us ++ ts.map LocatedToken.token) := by
  induction ts generalizing r us with
  | nil =>
      cases ht
      rwa [List.map_nil, List.append_nil]
  | cons t ts ih =>
      rw [feedAll_cons] at ht
      cases hf : r.feed t with
      | error e =>
          rw [hf] at ht
          cases ht
      | ok q =>
          rw [hf] at ht
          have hq := ih (h.feed hf) ht
          rwa [List.append_assoc] at hq

end Reader

/-- Tokens of which the reader makes a script spell this script. -/
theorem Script.spelled_of_ofTokens {s : Script} {ts : List LocatedToken} (h : ofTokens ts = .ok s) :
    s.Spelled (ts.map LocatedToken.token) := by
  unfold ofTokens at h
  cases hr : Reader.start.feedAll ts with
  | error e =>
      rw [hr] at h
      cases h
  | ok r =>
      rw [hr] at h
      have start : Reader.start.Consumed [] := .between .nil
      have hc := start.feedAll hr
      rw [List.nil_append] at hc
      generalize ts.map LocatedToken.token = us at hc
      cases hc with
      | between hs =>
          cases h
          exact hs
      | opened hs => cases h
      | inside hs hb he => cases h

/-! ### Completeness -/

namespace Reader

variable {script : Script} {name : String} {pos : Position} {body : Array Instruction}

theorem feedAll_instruction {i : Instruction} {ts : List LocatedToken}
    (h : i.Spelled (ts.map LocatedToken.token)) :
    (inside script ⟨name, pos, body, .instruction⟩).feedAll ts =
      .ok (inside script ⟨name, pos, body.push i, .instruction⟩) := by
  generalize hts : ts.map LocatedToken.token = toks at h
  cases h with
  | write a hv =>
      simp only [List.map_eq_cons_iff, List.map_eq_nil_iff] at hts
      obtain ⟨t₁, _, rfl, h₁, t₂, _, rfl, h₂, t₃, _, rfl, h₃, t₄, _, rfl, rfl, rfl⟩ := hts
      simp [feed, Expected.take, h₁, h₂, h₃, hv.ofToken?, Except.bind]
  | call target =>
      simp only [List.map_eq_cons_iff, List.map_eq_nil_iff] at hts
      obtain ⟨t₁, _, rfl, h₁, t₂, _, rfl, h₂, rfl⟩ := hts
      simp [feed, Expected.take, Expected.callOf, h₁, h₂, Except.bind]
  | callIf c target hl hr =>
      simp only [List.map_eq_cons_iff, List.map_eq_nil_iff] at hts
      obtain ⟨t₁, _, rfl, h₁, t₂, _, rfl, rfl, t₃, _, rfl, h₃, t₄, _, rfl, rfl, t₅, _, rfl, h₅,
        t₆, _, rfl, h₆, rfl⟩ := hts
      simp [feed, Expected.take, Expected.callOf, h₁, h₃, h₅, h₆, hl.ofToken?, hr.ofToken?,
        Except.bind]

theorem feedAll_body {is : List Instruction} {ts : List LocatedToken}
    (h : InTurn Instruction.Spelled is (ts.map LocatedToken.token)) :
    (inside script ⟨name, pos, body, .instruction⟩).feedAll ts =
      .ok (inside script ⟨name, pos, body ++ is.toArray, .instruction⟩) := by
  generalize hts : ts.map LocatedToken.token = toks at h
  induction h generalizing ts body with
  | nil =>
      rw [List.map_eq_nil_iff] at hts
      simp [hts]
  | @cons i is us vs hi _ ih =>
      obtain ⟨ts₁, ts₂, rfl, h₁, h₂⟩ := List.map_eq_append_iff.1 hts
      rw [feedAll_append, feedAll_instruction (h₁ ▸ hi)]
      have hrest := @ih (body.push i) ts₂ h₂
      simpa [Except.bind] using hrest

theorem feedAll_program {script' : Script} {p : Program} {ts : List LocatedToken}
    (h : p.Spelled (ts.map LocatedToken.token)) (hp : script.insert p = .ok script') :
    (between script).feedAll ts = .ok (between script') := by
  generalize hts : ts.map LocatedToken.token = toks at h
  cases h with
  | @intro name body us hb =>
      obtain ⟨_, ts₃, rfl, h₁₂, h₃⟩ := List.map_eq_append_iff.1 hts
      obtain ⟨ts₁, ts₂, rfl, h₁, h₂⟩ := List.map_eq_append_iff.1 h₁₂
      simp only [List.map_eq_cons_iff, List.map_eq_nil_iff] at h₁ h₃
      obtain ⟨t₁, _, rfl, h₁, t₂, _, rfl, h₂', rfl⟩ := h₁
      obtain ⟨t₃, _, rfl, h₃, rfl⟩ := h₃
      have hbody := @feedAll_body script name t₂.position #[] _ ts₂ (h₂ ▸ hb)
      simp [feedAll_append, feed, h₁, h₂', h₃, hbody, Expected.take, hp, Except.bind]

/-- Definitions are read in turn, if their names differ from each other and from those before. -/
theorem exists_feedAll_programs {ps : List Program} {ts : List LocatedToken}
    (h : InTurn Program.Spelled ps (ts.map LocatedToken.token))
    (hn : (script.names ++ ps.map Program.name).Nodup) :
    ∃ script' : Script, (between script).feedAll ts = .ok (between script') ∧
      script'.programs.toList = script.programs.toList ++ ps := by
  generalize hts : ts.map LocatedToken.token = toks at h
  induction h generalizing ts script with
  | nil =>
      rw [List.map_eq_nil_iff] at hts
      exact ⟨script, by simp [hts]⟩
  | @cons p ps us vs hp _ ih =>
      obtain ⟨ts₁, ts₂, rfl, h₁, h₂⟩ := List.map_eq_append_iff.1 hts
      have free : p.name ∉ script.names := fun hmem =>
        (List.nodup_append.1 hn).2.2 _ hmem _ List.mem_cons_self rfl
      obtain ⟨next, hnext⟩ := Script.exists_insert_iff.2 free
      have hprograms : next.programs.toList = script.programs.toList ++ [p] := by
        rw [Script.programs_of_insert hnext, Array.toList_push]
      have hn' : (next.names ++ ps.map Program.name).Nodup := by
        simpa [Script.names, hprograms] using hn
      obtain ⟨script', hfeed, hall⟩ := ih hn' h₂
      refine ⟨script', ?_, ?_⟩
      · rw [feedAll_append, feedAll_program (h₁ ▸ hp) hnext]
        exact hfeed
      · rw [hall, hprograms, List.append_assoc]
        rfl

end Reader

namespace Script

/-- The programs of which tokens are the spelling are read as a script exactly if no name is
defined twice. -/
theorem exists_ofTokens_iff {ts : List LocatedToken} {ps : List Program} :
    (∃ s, ofTokens ts = .ok s ∧ s.programs.toList = ps) ↔
      InTurn Program.Spelled ps (ts.map LocatedToken.token) ∧ (ps.map Program.name).Nodup := by
  constructor
  · rintro ⟨s, h, rfl⟩
    exact ⟨spelled_of_ofTokens h, s.nodup⟩
  · rintro ⟨h, hn⟩
    obtain ⟨s, hfeed, hall⟩ := @Reader.exists_feedAll_programs ∅ ps ts h hn
    refine ⟨s, ?_, hall⟩
    rw [ofTokens, Reader.start, hfeed]
    rfl

/-- The reader makes a script of its spelling. -/
theorem ofTokens_of_spelled {s : Script} {ts : List LocatedToken}
    (h : s.Spelled (ts.map LocatedToken.token)) : ofTokens ts = .ok s := by
  obtain ⟨s', hs', hall⟩ := exists_ofTokens_iff.2 ⟨h, s.nodup⟩
  obtain rfl : s' = s := ext (Array.toList_inj.1 hall)
  exact hs'

/-- **The reader accepts exactly its grammar**, and makes the script that the tokens spell. The
tokens may be any tokens at any places. -/
theorem ofTokens_eq_ok_iff (ts : List LocatedToken) (s : Script) :
    ofTokens ts = .ok s ↔ s.Spelled (ts.map LocatedToken.token) ∧ s.names.Nodup := by
  constructor
  · intro h
    exact exists_ofTokens_iff.1 ⟨s, h, rfl⟩
  · rintro ⟨h, -⟩
    exact ofTokens_of_spelled h

end Script

end GridLang
