import Mathlib.Data.List.Basic

/-! One text divided in two ways: where a character stands in it that one of the ways divides it
at.
-/

namespace FormulaLatex

theorem exists_of_append_eq_append_cons {front back before after : List Char} {c : Char}
    (same : front ++ back = before ++ c :: after)
    : (∃ more, before = front ++ more ∧ back = more ++ c :: after)
        ∨ ∃ more, front = before ++ c :: more := by
  rcases List.append_eq_append_iff.mp same with ⟨more, rfl, rest⟩ | ⟨more, rfl, rest⟩
  · exact Or.inl ⟨more, rfl, rest⟩
  · cases more with
    | nil => exact Or.inl ⟨[], by simp, rest.symm⟩
    | cons first more =>
        obtain ⟨rfl, _⟩ := List.cons.inj rest
        exact Or.inr ⟨more, rfl⟩

theorem prefix_of_not_mem {text front back : List Char} {c : Char}
    (begins : text <+: front ++ c :: back) (outside : c ∉ text)
    : text <+: front := by
  obtain ⟨rest, same⟩ := begins
  rcases exists_of_append_eq_append_cons same with ⟨more, rfl, _⟩ | ⟨more, rfl⟩
  · exact List.prefix_append text more
  · exact absurd (by simp) outside

/-- A stretch without a character stands before it or after it. -/
theorem before_or_after_of_not_mem {stretch front back before after : List Char} {c : Char}
    (outside : c ∉ stretch) (same : front ++ (stretch ++ back) = before ++ c :: after)
    : (∃ more, before = front ++ (stretch ++ more) ∧ back = more ++ c :: after)
        ∨ ∃ more, front = before ++ c :: more ∧ after = more ++ (stretch ++ back) := by
  rcases exists_of_append_eq_append_cons same with ⟨more, rfl, later⟩ | ⟨more, rfl⟩
  · rcases exists_of_append_eq_append_cons later with ⟨middle, rfl, rest⟩ | ⟨middle, within⟩
    · exact Or.inl ⟨middle, rfl, rest⟩
    · exact absurd (within ▸ by simp) outside
  · rw [List.append_assoc] at same
    exact Or.inr ⟨more, rfl, (List.cons.inj (List.append_cancel_left same)).2.symm⟩

/-- A text begins in one way with characters that a test tells from the next one. -/
theorem append_injective_of_stops {p : Char → Bool} {front other back otherBack : List Char}
    (all : ∀ c ∈ front, p c = true) (otherAll : ∀ c ∈ other, p c = true)
    (stops : ∀ c ∈ back.head?, p c = false) (otherStops : ∀ c ∈ otherBack.head?, p c = false)
    (same : front ++ back = other ++ otherBack)
    : front = other ∧ back = otherBack := by
  have taken : ∀ {front back : List Char}, (∀ c ∈ front, p c = true) →
      (∀ c ∈ back.head?, p c = false) → (front ++ back).takeWhile p = front := by
    intro front back all stops
    rw [List.takeWhile_append_of_pos all]
    cases back with
    | nil => simp
    | cons c back => rw [List.takeWhile_cons_of_neg (by simp [stops c rfl]), List.append_nil]
  have fronts : front = other := by
    rw [← taken all stops, same, taken otherAll otherStops]
  rw [fronts] at same
  exact ⟨fronts, List.append_cancel_left same⟩

end FormulaLatex
