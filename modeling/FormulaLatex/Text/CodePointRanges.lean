/-! Membership of a code point in a property that is given by ranges. -/

namespace FormulaLatex.Text

/-- Whether `code` lies in one of the closed ranges of an ascending list. The search stops
at the first range that begins above `code`.
-/
def memRanges : List (Nat × Nat) → Nat → Bool
  | [], _ => false
  | (first, last) :: rest, code =>
      if code < first then false
      else if code ≤ last then true
      else memRanges rest code

/-- A code point that is found lies in one of the ranges. -/
theorem exists_range_of_memRanges {ranges : List (Nat × Nat)} {code : Nat}
    (found : memRanges ranges code = true)
    : ∃ range ∈ ranges, range.1 ≤ code ∧ code ≤ range.2 := by
  induction ranges with
  | nil => simp [memRanges] at found
  | cons range rest ih =>
      obtain ⟨first, last⟩ := range
      simp only [memRanges] at found
      split at found
      · simp at found
      · rename_i above
        split at found
        · rename_i below
          exact ⟨(first, last), List.mem_cons_self, Nat.le_of_not_lt above, below⟩
        · obtain ⟨range, member, within⟩ := ih found
          exact ⟨range, List.mem_cons_of_mem _ member, within⟩

end FormulaLatex.Text
