import FormulaLatex.Text.Blank
import FormulaLatex.Text.Numeric

/-! How the classes of characters lie to each other: white space, letters and numerals do not
overlap, and among the characters of ASCII the letters and numerals are those of everyday use.
-/

namespace FormulaLatex.Text

theorem memRanges_eq_false_of_apart {ranges others : List (Nat × Nat)} {code : Nat}
    (apart : ∀ range ∈ ranges, ∀ other ∈ others,
      Nat.blt range.2 other.1 || Nat.blt other.2 range.1)
    (member : memRanges ranges code = true)
    : memRanges others code = false := by
  rw [Bool.eq_false_iff]
  intro otherMember
  obtain ⟨range, inRanges, above, below⟩ := exists_range_of_memRanges member
  obtain ⟨other, inOthers, otherAbove, otherBelow⟩ := exists_range_of_memRanges otherMember
  have clear := apart range inRanges other inOthers
  simp only [Bool.or_eq_true, Nat.blt_eq] at clear
  omega

theorem isAlphabetic_eq_false_of_isBlank {c : Char} (blank : isBlank c = true)
    : isAlphabetic c = false := by
  refine memRanges_eq_false_of_apart ?_ blank
  simp only [← List.all_eq_true]
  decide +kernel

theorem isNumeric_eq_false_of_isBlank {c : Char} (blank : isBlank c = true)
    : isNumeric c = false := by
  refine memRanges_eq_false_of_apart ?_ blank
  simp only [← List.all_eq_true]
  decide +kernel

theorem isDigit_iff_toNat {c : Char} : c.isDigit = true ↔ 0x30 ≤ c.toNat ∧ c.toNat ≤ 0x39 := by
  simp only [Char.isDigit, Bool.and_eq_true, decide_eq_true_eq, UInt32.le_iff_toNat_le]
  rfl

theorem memRanges_of_isDigit {c : Char} (digit : c.isDigit = true)
    : memRanges [(0x30, 0x39)] c.toNat = true := by
  obtain ⟨above, below⟩ := isDigit_iff_toNat.mp digit
  simp [memRanges, Nat.not_lt.mpr above, below]

theorem isAlphabetic_eq_false_of_isDigit {c : Char} (digit : c.isDigit = true)
    : isAlphabetic c = false := by
  refine memRanges_eq_false_of_apart ?_ (memRanges_of_isDigit digit)
  simp only [← List.all_eq_true]
  decide +kernel

theorem isBlank_eq_false_of_isDigit {c : Char} (digit : c.isDigit = true)
    : isBlank c = false := by
  refine memRanges_eq_false_of_apart ?_ (memRanges_of_isDigit digit)
  simp only [← List.all_eq_true]
  decide +kernel

theorem memRanges_of_isAlpha {c : Char} (alpha : c.isAlpha = true)
    : memRanges [(0x41, 0x5A), (0x61, 0x7A)] c.toNat = true := by
  have letter : 0x41 ≤ c.toNat ∧ c.toNat ≤ 0x5A ∨ 0x61 ≤ c.toNat ∧ c.toNat ≤ 0x7A := by
    refine (Bool.or_eq_true_iff.mp alpha).imp (fun upper => of_decide_eq_true upper) ?_
    intro lower
    obtain ⟨above, below⟩ := Bool.and_eq_true_iff.mp lower
    exact ⟨of_decide_eq_true above, of_decide_eq_true below⟩
  simp only [memRanges]
  split
  · omega
  · split
    · rfl
    · rw [if_neg (by omega), if_pos (by omega)]

theorem isBlank_eq_false_of_isAlpha {c : Char} (alpha : c.isAlpha = true)
    : isBlank c = false := by
  refine memRanges_eq_false_of_apart ?_ (memRanges_of_isAlpha alpha)
  simp only [← List.all_eq_true]
  decide +kernel

/-- A code point beyond ASCII, or a digit or a letter of ASCII. -/
def IsPlainCode (code : Nat) : Prop :=
  0x30 ≤ code ∧ code ≤ 0x39 ∨ 0x41 ≤ code ∧ code ≤ 0x5A ∨ 0x61 ≤ code ∧ code ≤ 0x7A
    ∨ 0x80 ≤ code

instance : DecidablePred IsPlainCode :=
  fun _ => inferInstanceAs (Decidable (_ ∨ _))

theorem isPlainCode_of_memRanges {ranges : List (Nat × Nat)} {code : Nat}
    (plain : ∀ range ∈ ranges,
      Nat.ble 0x30 range.1 && Nat.ble range.2 0x39
        || Nat.ble 0x41 range.1 && Nat.ble range.2 0x5A
        || Nat.ble 0x61 range.1 && Nat.ble range.2 0x7A || Nat.ble 0x80 range.1)
    (member : memRanges ranges code = true)
    : IsPlainCode code := by
  obtain ⟨range, inRanges, above, below⟩ := exists_range_of_memRanges member
  have within := plain range inRanges
  simp only [Bool.or_eq_true, Bool.and_eq_true, Nat.ble_eq] at within
  rw [IsPlainCode]
  omega

/-- The only letters and numerals of ASCII are its letters and digits. -/
theorem isPlainCode_of_isAlphanumeric {c : Char} (alphanumeric : isAlphanumeric c = true)
    : IsPlainCode c.toNat := by
  rcases Bool.or_eq_true_iff.mp alphanumeric with alphabetic | numeric
  · refine isPlainCode_of_memRanges ?_ alphabetic
    simp only [← List.all_eq_true]
    decide +kernel
  · refine isPlainCode_of_memRanges ?_ numeric
    simp only [← List.all_eq_true]
    decide +kernel

end FormulaLatex.Text
