/-!
# GridLang.Text.Terminal

**What a terminal would show of a text.** Control characters and the control sequences that they
open are left out; white space stays. `Terminal.visible` is used where a message shows something
that was typed, so that it cannot move the cursor, change colours or hide other text.

Sequences follow the usual automaton for terminals: `ESC [` opens a control sequence and `ESC ]` a
command to the system, `ESC P` announces a string for the device, which has parameters of its own,
`ESC X`, `ESC ^` and `ESC _` open other strings, and `ESC` in front of anything else makes a short
sequence. `ESC` always opens a new sequence, and the characters CAN and SUB always end one.

Design points:

* White space inside a sequence does not belong to it. It is shown, and so is what stands behind
  it, up to the next control character; there the sequence goes on (`State.suspended`). A
  character outside ASCII puts an end to a sequence that waits in this way.
* Characters stand for their octets in UTF-8. Strings other than commands to the system are closed
  by the octet `9C`, be it part of a longer character.
* A sequence that is not complete at the end of the text hides all of its rest.

A text without control characters other than white space is *legible*. Exactly these texts are shown
as they are (`visible_eq_self_iff`), and what is shown of any text is one (`legible_visible`).
-/

namespace GridLang.Terminal

/-- The control character that opens a sequence. -/
def esc : Char := '\x1b'

/-- Whether a character ends every sequence: CAN and SUB do. -/
def cancels (c : Char) : Bool := c = '\x18' || c = '\x1a'

/-- Whether a character is a control character of ASCII. -/
def isControl (c : Char) : Bool := c.toNat < 0x20 || c = '\x7f'

/-- Whether a control character only moves on in the text. -/
def isWhite (c : Char) : Bool := c = '\t' || c = '\n' || c = '\x0c' || c = '\r'

/-- Whether a character is shown where it stands outside of sequences. -/
def isShown (c : Char) : Bool := !isControl c || isWhite c

/-- Whether a character closes a string. -/
def closesString (c : Char) : Bool := (String.utf8EncodeChar c).contains 0x9C

/-- What has been read of a sequence. -/
inductive Sequence
  /-- `ESC` alone. -/
  | opened
  /-- `ESC` and intermediate characters. -/
  | intermediate
  /-- The first part of a control sequence. -/
  | control
  /-- The announcement of a string for the device, and nothing of its parameters. -/
  | device
  /-- The first part of its parameters. -/
  | deviceParameters
  /-- Intermediate characters behind its parameters. -/
  | deviceIntermediate
  /-- The first part of a string. -/
  | string
  /-- The first part of a command to the system. -/
  | command
  deriving Repr, DecidableEq

/-- Where in a text a character stands. -/
inductive State
  /-- Outside of sequences. -/
  | plain
  /-- Inside a sequence. -/
  | inside (s : Sequence)
  /-- Behind white space inside a sequence. -/
  | suspended (s : Sequence)
  deriving Repr, DecidableEq

namespace Sequence

/-- Reads on behind `ESC`. Characters that neither lead on nor end the sequence change nothing. -/
def afterEsc (c : Char) : State :=
  if isControl c || 0x80 ≤ c.toNat then .inside opened
  else if c.toNat < 0x30 then .inside intermediate
  else if c = '[' then .inside control
  else if c = ']' then .inside command
  else if c = 'P' then .inside device
  else if c = 'X' || c = '^' || c = '_' then .inside string
  else .plain

/-- Reads on where a sequence ends with a character from `first` on. -/
def endingFrom (first : Char) (s : Sequence) (c : Char) : State :=
  if isControl c || c < first || 0x80 ≤ c.toNat then .inside s else .plain

/-- Reads on in the announcement of a string. -/
def announcement (s : Sequence) (c : Char) : State :=
  if isControl c || 0x80 ≤ c.toNat then .inside s
  else if c.toNat < 0x30 then .inside deviceIntermediate
  else if c.toNat < 0x40 && (s = device || s = deviceParameters && c.toNat < 0x3C) then
    .inside deviceParameters
  else .inside string

/-- Reads on with a character that does not belong to every sequence. -/
def next : Sequence → Char → State
  | opened, c => afterEsc c
  | intermediate, c => endingFrom '0' intermediate c
  | control, c => endingFrom '@' control c
  | device, c => announcement device c
  | deviceParameters, c => announcement deviceParameters c
  | deviceIntermediate, c => announcement deviceIntermediate c
  | string, c => if closesString c then .plain else .inside string
  | command, c => if c = '\x07' then .plain else .inside command

/-- Whether white space is shown inside a sequence; strings and their announcements hide it. -/
def showsWhite : Sequence → Bool
  | opened | intermediate | control => true
  | device | deviceParameters | deviceIntermediate | string | command => false

end Sequence

/-- Reads on inside a sequence, and tells whether the character is shown. -/
def stepInside (s : Sequence) (c : Char) : State × Bool :=
  if c = esc then (.inside .opened, false)
  else if cancels c then (.plain, false)
  else if s.showsWhite && isWhite c then (.suspended s, true)
  else (s.next c, false)

/-- Reads on, and tells whether the character is shown. -/
def step : State → Char → State × Bool
  | .plain, c => if c = esc then (.inside .opened, false) else (.plain, isShown c)
  | .inside s, c => stepInside s c
  | .suspended s, c =>
    if isShown c then (if c.toNat < 0x80 then .suspended s else .plain, true) else stepInside s c

/-- The characters that are shown of some text. -/
def visibleFrom (state : State) : List Char → List Char
  | [] => []
  | c :: cs =>
    let (state, shown) := step state c
    if shown then c :: visibleFrom state cs else visibleFrom state cs

/-- What is shown of a text. -/
def visible (s : String) : String := String.ofList (visibleFrom .plain s.toList)

/-! ## Texts that are shown as they are -/

/-- Whether a text has no control character of ASCII but white space. Such a text opens no
sequence. -/
def Legible (s : String) : Prop := ∀ c ∈ s.toList, isShown c = true

-- By a look at the characters of the text, not at all characters there are.
instance (s : String) : Decidable (Legible s) :=
  decidable_of_iff (s.toList.all isShown = true) List.all_eq_true

@[simp] theorem legible_append {s t : String} : Legible (s ++ t) ↔ Legible s ∧ Legible t := by
  simp only [Legible, String.toList_append, List.forall_mem_append]

/-- Inside a sequence, no control character of ASCII but white space is shown. -/
theorem isShown_of_stepInside {s : Sequence} {c : Char} (h : (stepInside s c).2 = true) :
    isShown c = true := by
  unfold stepInside at h
  split at h
  · cases h
  · split at h
    · cases h
    · split at h
      next hwhite =>
        rw [Bool.and_eq_true] at hwhite
        rw [isShown, hwhite.2, Bool.or_true]
      · cases h

/-- Nor is one shown anywhere else. -/
theorem isShown_of_step {state : State} {c : Char} (h : (step state c).2 = true) :
    isShown c = true := by
  cases state with
  | plain =>
    simp only [step] at h
    split at h
    · cases h
    · exact h
  | inside s => exact isShown_of_stepInside h
  | suspended s =>
    simp only [step] at h
    split at h
    next hshown => exact hshown
    · exact isShown_of_stepInside h

theorem isShown_of_mem_visibleFrom {state : State} {cs : List Char} {c : Char}
    (h : c ∈ visibleFrom state cs) : isShown c = true := by
  induction cs generalizing state with
  | nil => cases h
  | cons d ds ih =>
    simp only [visibleFrom] at h
    split at h
    next hshown =>
      rcases List.mem_cons.1 h with rfl | h
      · exact isShown_of_step hshown
      · exact ih h
    · exact ih h

/-- **What is shown of a text is legible**, whatever the text is. -/
theorem legible_visible (s : String) : Legible (visible s) := by
  intro c hc
  rw [visible, String.toList_ofList] at hc
  exact isShown_of_mem_visibleFrom hc

/-- A sequence that would clear the screen is left out. -/
example : visible "a\x1b[2Jb" = "ab" := by decide

theorem visibleFrom_eq_self {cs : List Char} (h : ∀ c ∈ cs, isShown c = true) :
    visibleFrom .plain cs = cs := by
  induction cs with
  | nil => rfl
  | cons c cs ih =>
    obtain ⟨hc, hcs⟩ := List.forall_mem_cons.1 h
    have hne : c ≠ esc := by
      rintro rfl
      exact absurd hc (by decide)
    simp only [visibleFrom, step, if_neg hne, hc, if_true, ih hcs]

/-- **A text is shown as it is** if and only if it is legible. -/
theorem visible_eq_self_iff {s : String} : visible s = s ↔ Legible s := by
  constructor
  · intro h
    rw [← h]
    exact legible_visible s
  · intro h
    rw [visible, visibleFrom_eq_self h, String.ofList_toList]

end GridLang.Terminal
