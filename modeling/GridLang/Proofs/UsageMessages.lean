import GridLang.CommandLine.Report

/-!
# GridLang.Proofs.UsageMessages

**Messages about the arguments leave the terminal alone.** Such a message repeats what was typed, in
part or in quotes, and what was typed may hold control sequences. Of the parts only what a terminal
shows is repeated, and in quotes control characters are escaped (`Text.legible_quote`). So the
message as a whole opens no sequence, and a terminal shows it as it stands
(`CommandLine.follow_of_error`).

Any of the functions that read the arguments can fail. What they have in common is that each of
their errors has such a message (`ErrorsLegible`), and this is kept where one reads on after another
(`ErrorsLegible.bind`).
-/

namespace GridLang

open Terminal

/-! ### Text in quotes -/

namespace Text

theorem isShown_digitChar {n : Nat} (h : n < 16) : isShown n.digitChar = true := by
  have hall : ∀ m < 16, isShown m.digitChar = true := by decide
  exact hall n h

theorem isShown_of_mem_toDigits {n : Nat} {c : Char} (h : c ∈ Nat.toDigits 16 n) :
    isShown c = true := by
  induction n using Nat.strongRecOn with
  | ind n ih =>
      rw [Nat.toDigits_eq_if (by decide)] at h
      split at h
      next hlt =>
        obtain rfl := List.mem_singleton.1 h
        exact isShown_digitChar hlt
      · rcases List.mem_append.1 h with h | h
        · exact ih (n / 16) (Nat.div_lt_self (by omega) (by decide)) h
        · obtain rfl := List.mem_singleton.1 h
          exact isShown_digitChar (Nat.mod_lt n (by decide))

/-- A printable character is no control character. -/
theorem isShown_of_isPrintable {c : Char} (h : isPrintable c = true) : isShown c = true := by
  have hcontrol : isControl c = false := by
    have hne : c ≠ '\x7f' := by
      rintro rfl
      exact absurd h (by decide)
    have hle : 0x20 ≤ c.toNat := by
      unfold isPrintable at h
      split at h
      · simpa using h
      · omega
    simp [isControl, hne, hle]
  rw [isShown, hcontrol]
  rfl

theorem isShown_of_mem_escapeChar {c : Char} : ∀ d ∈ escapeChar c, isShown d = true := by
  unfold escapeChar
  split
  case h_7 =>
    split
    next hprintable => simpa using isShown_of_isPrintable hprintable
    · -- The code point in hexadecimal, between its marks.
      simp only [List.forall_mem_append]
      exact ⟨⟨List.all_eq_true.1 rfl, fun d hd => isShown_of_mem_toDigits hd⟩,
        List.all_eq_true.1 rfl⟩
  all_goals exact List.all_eq_true.1 rfl

/-- **In quotes no control character is left**, whatever is quoted. -/
theorem legible_quote (s : String) : Legible (quote s) := by
  intro c hc
  simp only [quote, String.toList_ofList, List.mem_append, List.mem_cons, List.mem_flatMap,
    List.not_mem_nil, or_false] at hc
  rcases hc with (rfl | ⟨d, -, hc⟩) | rfl
  · rfl
  · exact isShown_of_mem_escapeChar c hc
  · rfl

end Text

/-! ### The wording of errors

The parts that vary are legible by lemmas of their own, and the fixed parts are evaluated. -/

theorem NumeralFault.legible_message (fault : NumeralFault) : Legible fault.message := by
  cases fault <;> decide

namespace CommandLine

theorem SeedFault.legible_message (fault : SeedFault) : Legible fault.message := by
  unfold message
  cases fault <;>
    simp only [legible_append, Text.legible_quote, NumeralFault.legible_message, and_true] <;>
    decide

theorem Slot.legible_label (slot : Slot) : Legible slot.label := by
  cases slot <;> decide

namespace UsageError

theorem legible_missingStart : Legible missingStart.message := by
  decide

theorem legible_missingValue (slot : Slot) : Legible (missingValue slot).message := by
  unfold message
  simp only [legible_append, slot.legible_label, and_true]
  decide

theorem legible_repeated (slot : Slot) : Legible (repeated slot).message := by
  unfold message
  simp only [legible_append, slot.legible_label, and_true]
  decide

/-- An argument that has no place may hold anything. -/
theorem legible_unexpectedArgument (argument : String) :
    Legible (unexpectedArgument argument).message := by
  unfold message
  simp only [legible_append, legible_visible, and_true]
  decide

/-- So may a value of an option that takes none. -/
theorem legible_unexpectedValue (value : String) {option : String} (h : Legible option) :
    Legible (unexpectedValue value option).message := by
  unfold message
  simp only [legible_append, legible_visible, h, and_true]
  decide

/-- So may a value that is refused. -/
theorem legible_invalidValue (value : String) (slot : Slot) {reason : String}
    (h : Legible reason) : Legible (invalidValue value slot reason).message := by
  unfold message
  simp only [legible_append, legible_visible, slot.legible_label, h, and_true]
  decide

end UsageError

/-! ### The reading of the arguments -/

/-- Every error that a reading ends with has a message that a terminal shows as it stands. -/
def ErrorsLegible {α : Type} (x : Except Stop α) : Prop :=
  ∀ e, x = .error (.misuse e) → Legible e.message

section

variable {α β : Type}

theorem errorsLegible_ok (a : α) : ErrorsLegible (.ok a) := fun _ h => nomatch h

theorem errorsLegible_help : ErrorsLegible (.error .help : Except Stop α) := fun _ h => nomatch h

theorem errorsLegible_misuse {e : UsageError} (h : Legible e.message) :
    ErrorsLegible (.error (.misuse e) : Except Stop α) := by
  intro e' he
  cases he
  exact h

theorem ErrorsLegible.bind {x : Except Stop α} {f : α → Except Stop β} (hx : ErrorsLegible x)
    (hf : ∀ a, ErrorsLegible (f a)) : ErrorsLegible (x >>= f) := by
  cases x with
  | ok a => exact hf a
  | error stop =>
      intro e h
      cases h
      exact hx e rfl

end

namespace Draft

theorem errorsLegible_settle (d : Draft) (slot : Slot) (value : String) :
    ErrorsLegible (d.settle slot value) := by
  cases slot with
  | source =>
      rw [settle]
      split
      · exact errorsLegible_misuse (UsageError.legible_missingValue .source)
      · exact errorsLegible_ok _
  | start =>
      rw [settle]
      split
      · exact errorsLegible_misuse (UsageError.legible_repeated .start)
      · exact errorsLegible_ok _
  | cell =>
      rw [settle]
      split
      · exact errorsLegible_ok _
      next fault _ =>
        exact errorsLegible_misuse
          (UsageError.legible_invalidValue value .cell fault.legible_message)
  | maxSteps =>
      rw [settle]
      split
      · exact errorsLegible_misuse (UsageError.legible_repeated .maxSteps)
      · split
        · exact errorsLegible_ok _
        next fault _ =>
          exact errorsLegible_misuse
            (UsageError.legible_invalidValue value .maxSteps fault.legible_message)

theorem errorsLegible_settlePending (d : Draft) : ErrorsLegible d.settlePending := by
  unfold settlePending
  split
  · exact errorsLegible_ok d
  next slot _ => exact errorsLegible_misuse (UsageError.legible_missingValue slot)
  · exact errorsLegible_settle _ _ _

theorem errorsLegible_takeOperand (d : Draft) (argument : String) :
    ErrorsLegible (d.takeOperand argument) := by
  unfold takeOperand
  split
  · exact errorsLegible_misuse (UsageError.legible_unexpectedArgument argument)
  · exact d.errorsLegible_settlePending.bind fun _ => errorsLegible_ok _

theorem errorsLegible_takeOption (d : Draft) (slot : Slot) (attached? : Option String) :
    ErrorsLegible (d.takeOption slot attached?) := by
  refine d.errorsLegible_settlePending.bind fun d => ?_
  cases attached? with
  | none => exact errorsLegible_ok _
  | some value => exact d.errorsLegible_settle slot value

theorem errorsLegible_takeHelp (d : Draft) : ErrorsLegible d.takeHelp :=
  d.errorsLegible_settlePending.bind fun _ => errorsLegible_help

theorem errorsLegible_takeLong (d : Draft) (option : List Char) :
    ErrorsLegible (d.takeLong option) := by
  unfold takeLong
  split
  next name attached? _ =>
    split
    case h_4 =>
      cases attached? with
      | none => exact d.errorsLegible_takeHelp
      | some value =>
          have hhelp : Legible "--help" := by decide
          exact errorsLegible_misuse (UsageError.legible_unexpectedValue value hhelp)
    case h_5 => exact errorsLegible_misuse (UsageError.legible_unexpectedArgument _)
    all_goals exact d.errorsLegible_takeOption _ attached?

theorem errorsLegible_takeShort (d : Draft) (letter : Char) (rest : List Char) :
    ErrorsLegible (d.takeShort letter rest) := by
  unfold takeShort
  dsimp only
  split
  · exact d.errorsLegible_takeOption .start _
  · exact d.errorsLegible_takeOption .cell _
  · exact d.errorsLegible_takeHelp
  · exact errorsLegible_misuse (UsageError.legible_unexpectedArgument _)

theorem errorsLegible_takePlain (d : Draft) (argument : String) :
    ErrorsLegible (d.takePlain argument) := by
  unfold takePlain
  split
  · exact errorsLegible_ok _
  · exact d.errorsLegible_takeOperand argument

theorem errorsLegible_take (d : Draft) (argument : String) : ErrorsLegible (d.take argument) := by
  unfold take
  split
  · exact d.errorsLegible_takeOperand argument
  · split
    · exact errorsLegible_ok _
    · exact d.errorsLegible_takeLong _
    · exact d.errorsLegible_takeShort _ _
    · exact d.errorsLegible_takePlain argument

theorem errorsLegible_finish (d : Draft) : ErrorsLegible d.finish := by
  refine d.errorsLegible_settlePending.bind fun d => ?_
  cases d.start? with
  | some start => exact errorsLegible_ok _
  | none => exact errorsLegible_misuse UsageError.legible_missingStart

/-- Arguments that are read one after another. -/
theorem errorsLegible_foldlM_take (arguments : List String) (d : Draft) :
    ErrorsLegible (arguments.foldlM take d) := by
  induction arguments generalizing d with
  | nil => exact errorsLegible_ok d
  | cons argument rest ih =>
      rw [List.foldlM_cons]
      exact (d.errorsLegible_take argument).bind ih

end Draft

theorem errorsLegible_ofArguments (arguments : List String) :
    ErrorsLegible (Options.ofArguments arguments) :=
  (Draft.errorsLegible_foldlM_take arguments {}).bind Draft.errorsLegible_finish

/-- **Arguments that cannot be followed** are answered without asking for a file, and a terminal
shows the answer as it stands, whatever was typed: nothing in it moves the cursor, changes colours
or hides other text. -/
theorem follow_of_error {m : Type → Type} [Monad m]
    (load : Option String → m (Except SourceFault (List UInt8))) {arguments : List String}
    {stop : Stop} (h : Options.ofArguments arguments = .error stop) :
    follow load arguments = pure (.ofStop stop) ∧
      visible (Report.ofStop stop).errors = (Report.ofStop stop).errors := by
  refine ⟨by rw [follow, h], visible_eq_self_iff.2 ?_⟩
  cases stop with
  | help => decide
  | misuse e =>
      have hmessage := errorsLegible_ofArguments arguments e h
      simp only [Report.ofStop, legible_append, hmessage, and_true]
      decide

end CommandLine

end GridLang
