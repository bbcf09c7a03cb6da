/-!
# GridLang.Text.Cut

**Cutting in two** at the first occurrence of a separator. `cut_eq_some_iff` says what the two
parts are: together with the separator they make up the whole, and the first part is free of it.
-/

namespace GridLang.Text

variable {α : Type} [DecidableEq α]

/-- What stands in front of the first separator and what stands behind it, if there is one. -/
def cut (sep : α) : List α → Option (List α × List α)
  | [] => none
  | x :: xs => if x = sep then some ([], xs) else (cut sep xs).map fun (l, r) => (x :: l, r)

theorem cut_eq_some_iff {sep : α} {xs l r : List α} :
    cut sep xs = some (l, r) ↔ xs = l ++ sep :: r ∧ sep ∉ l := by
  induction xs generalizing l with
  | nil => simp [cut]
  | cons x xs ih =>
    rw [cut]
    by_cases h : x = sep
    · subst h
      cases l with
      | nil => simp
      | cons y l =>
        simp only [if_true, Option.some.injEq, Prod.mk.injEq, List.cons_append, List.cons.injEq,
          List.mem_cons, not_or]
        exact ⟨fun e => absurd e.1.symm (List.cons_ne_nil _ _), fun e => absurd e.1.1 e.2.1⟩
    · simp only [h, if_false, Option.map_eq_some_iff, Prod.exists, Prod.mk.injEq]
      cases l with
      | nil => simp [h]
      | cons y l =>
        simp only [List.cons.injEq, List.cons_append, List.mem_cons, not_or]
        constructor
        · rintro ⟨l', r', e, ⟨rfl, rfl⟩, rfl⟩
          have := ih.1 e
          exact ⟨⟨rfl, this.1⟩, fun e => h e.symm, this.2⟩
        · rintro ⟨⟨rfl, e⟩, -, hl⟩
          exact ⟨l, r, ih.2 ⟨e, hl⟩, ⟨rfl, rfl⟩, rfl⟩

theorem cut_eq_none_iff {sep : α} {xs : List α} : cut sep xs = none ↔ sep ∉ xs := by
  induction xs with
  | nil => simp [cut]
  | cons x xs ih =>
    rw [cut]
    by_cases h : x = sep
    · simp [h]
    · simp only [h, if_false, Option.map_eq_none_iff, ih, List.mem_cons, not_or]
      exact ⟨fun e => ⟨fun e => h e.symm, e⟩, fun e => e.2⟩

end GridLang.Text
