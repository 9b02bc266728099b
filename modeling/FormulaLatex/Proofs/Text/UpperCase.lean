import FormulaLatex.Text.UpperCase

/-! Upper-casing comes to rest: what a character becomes is in upper case already. The tables
decide this run by run, since the upper-case forms of one run never meet the lower-case code
points of another.
-/

namespace FormulaLatex.Text

theorem exists_run_of_upperInRuns? {runs : List CaseRun} {code upper : Nat}
    (found : upperInRuns? runs code = some upper)
    : ∃ run ∈ runs, run.covers code = true ∧ upper = run.upper + (code - run.first) := by
  induction runs with
  | nil => cases found
  | cons run rest ih =>
      rw [upperInRuns?] at found
      split at found
      · cases found
      · split at found
        · rename_i covered
          exact ⟨run, List.mem_cons_self, covered, (Option.some.inj found).symm⟩
        · obtain ⟨other, member, covered, same⟩ := ih found
          exact ⟨other, List.mem_cons_of_mem _ member, covered, same⟩

theorem upperInRuns?_eq_none {runs : List CaseRun} {code : Nat}
    (missed : ∀ run ∈ runs, run.covers code = false)
    : upperInRuns? runs code = none := by
  induction runs with
  | nil => rfl
  | cons run rest ih =>
      obtain ⟨first, others⟩ := List.forall_mem_cons.mp missed
      rw [upperInRuns?, first, ih others]
      simp

theorem mem_of_expandedCase? {entries : List (Nat × List Nat)} {code : Nat}
    {codes : List Nat} (found : expandedCase? entries code = some codes)
    : (code, codes) ∈ entries := by
  induction entries with
  | nil => cases found
  | cons entry rest ih =>
      obtain ⟨key, expansion⟩ := entry
      rw [expandedCase?] at found
      split at found
      · cases found
      · split at found
        · rename_i same
          rw [same, Option.some.inj found]
          exact List.mem_cons_self
        · exact List.mem_cons_of_mem _ (ih found)

theorem expandedCase?_eq_none {entries : List (Nat × List Nat)} {code : Nat}
    (missed : ∀ entry ∈ entries, entry.1 ≠ code)
    : expandedCase? entries code = none := by
  induction entries with
  | nil => rfl
  | cons entry rest ih =>
      obtain ⟨first, others⟩ := List.forall_mem_cons.mp missed
      rw [expandedCase?, ih others]
      simp [Ne.symm first]

/-- A code point of a character that is its own upper-case form: a capital letter of ASCII, or
anything beyond ASCII that the tables leave alone.
-/
structure Capital (code : Nat) : Prop where
  valid : code.isValidChar
  uncased : upperInRuns? caseRuns code = none
  unexpanded : expandedCase? expandingCases code = none
  letter : 0x41 ≤ code ∧ code ≤ 0x5A ∨ 0x80 ≤ code

instance (code : Nat) : Decidable (Capital code) :=
  decidable_of_iff
    (code.isValidChar ∧ upperInRuns? caseRuns code = none
      ∧ expandedCase? expandingCases code = none
      ∧ (0x41 ≤ code ∧ code ≤ 0x5A ∨ 0x80 ≤ code))
    ⟨fun ⟨valid, uncased, unexpanded, letter⟩ => ⟨valid, uncased, unexpanded, letter⟩,
      fun ⟨valid, uncased, unexpanded, letter⟩ => ⟨valid, uncased, unexpanded, letter⟩⟩

/-- The last upper-case code point of a run. -/
def CaseRun.upperLast (run : CaseRun) : Nat :=
  run.upper + (run.last - run.first)

/-- Whether no upper-case code point of a run is a lower-case code point of another. Where
one lies among the others, every second code point is skipped.
-/
def CaseRun.clears (run other : CaseRun) : Bool :=
  Nat.blt run.upperLast other.first || Nat.blt other.last run.upper
    || (Nat.beq other.step 2 && (Nat.beq run.step 2 || Nat.beq run.first run.last)
      && Nat.beq ((run.upper + other.first) % 2) 1)

/-- Whether the upper-case code points of a run are letters, and none of them expands. -/
def CaseRun.lands (run : CaseRun) : Bool :=
  (Nat.ble 0x41 run.upper && Nat.ble run.upperLast 0x5A || Nat.ble 0x80 run.upper)
    && (Nat.blt run.upperLast 0xD800
      || Nat.blt 0xDFFF run.upper && Nat.blt run.upperLast 0x110000)
    && expandingCases.all fun entry =>
      Nat.blt run.upperLast entry.1 || Nat.blt entry.1 run.upper

theorem caseRuns_clear : ∀ run ∈ caseRuns, ∀ other ∈ caseRuns, run.clears other = true := by
  simp only [← List.all_eq_true]
  decide +kernel

theorem caseRuns_land : ∀ run ∈ caseRuns, run.lands = true := by
  simp only [← List.all_eq_true]
  decide +kernel

theorem CaseRun.covers_eq_true {run : CaseRun} {code : Nat}
    : run.covers code = true
        ↔ run.first ≤ code ∧ code ≤ run.last ∧ (code - run.first) % run.step = 0 := by
  simp [CaseRun.covers, and_assoc]

theorem CaseRun.clears_upper {run other : CaseRun} (clear : run.clears other = true)
    {code : Nat} (covered : run.covers code = true)
    : other.covers (run.upper + (code - run.first)) = false := by
  obtain ⟨above, below, spaced⟩ := covers_eq_true.mp covered
  rw [Bool.eq_false_iff, ne_eq, covers_eq_true]
  rintro ⟨otherAbove, otherBelow, otherSpaced⟩
  simp only [clears, upperLast, Bool.or_eq_true, Bool.and_eq_true, Nat.blt_eq, Nat.beq_eq]
    at clear
  rcases clear with (before | after) | ⟨⟨double, single⟩, odd⟩
  · omega
  · omega
  · have even : (code - run.first) % 2 = 0 := by
      rcases single with alike | lone
      · rw [← alike]
        exact spaced
      · omega
    rw [double] at otherSpaced
    omega

theorem capital_of_run {run : CaseRun} (member : run ∈ caseRuns) {code : Nat}
    (covered : run.covers code = true)
    : Capital (run.upper + (code - run.first)) := by
  obtain ⟨above, below, _⟩ := CaseRun.covers_eq_true.mp covered
  have land := caseRuns_land run member
  simp only [CaseRun.lands, CaseRun.upperLast, Bool.or_eq_true, Bool.and_eq_true,
    List.all_eq_true, Nat.blt_eq, Nat.ble_eq] at land
  obtain ⟨⟨letter, valid⟩, unexpanded⟩ := land
  constructor
  · simp only [Nat.isValidChar]
    omega
  · exact upperInRuns?_eq_none fun other otherMember =>
      CaseRun.clears_upper (caseRuns_clear run member other otherMember) covered
  · refine expandedCase?_eq_none fun entry entryMember => ?_
    have apart := unexpanded entry entryMember
    omega
  · omega

theorem capital_of_expansion
    : ∀ entry ∈ expandingCases, entry.2 ≠ [] ∧ ∀ code ∈ entry.2, Capital code := by
  decide +kernel

theorem Capital.toNat_ofNat {code : Nat} (capital : Capital code)
    : (Char.ofNat code).toNat = code := by
  rw [Char.ofNat, dif_pos capital.valid]
  rfl

theorem Capital.upperCaseChar {c : Char} (capital : Capital c.toNat)
    : upperCaseChar c = [c] := by
  rw [Text.upperCaseChar, capital.uncased, capital.unexpanded]

theorem upperCaseChar_ne_nil (c : Char) : upperCaseChar c ≠ [] := by
  rw [upperCaseChar]
  split
  · simp
  · split
    · rename_i codes expanded
      simpa using (capital_of_expansion _ (mem_of_expandedCase? expanded)).1
    · simp

/-- What a character becomes is capital, unless the character stays what it is. -/
theorem mem_upperCaseChar {c d : Char} (member : d ∈ upperCaseChar c)
    : Capital d.toNat ∨ (d = c ∧ upperCaseChar c = [c]) := by
  cases cased : upperInRuns? caseRuns c.toNat with
  | some code =>
      obtain ⟨run, runMember, covered, rfl⟩ := exists_run_of_upperInRuns? cased
      have capital := capital_of_run runMember covered
      rw [upperCaseChar, cased, List.mem_singleton] at member
      left
      rw [member, capital.toNat_ofNat]
      exact capital
  | none =>
      cases expanded : expandedCase? expandingCases c.toNat with
      | some codes =>
          rw [upperCaseChar, cased, expanded] at member
          obtain ⟨code, codeMember, rfl⟩ := List.mem_map.mp member
          have capital := (capital_of_expansion _ (mem_of_expandedCase? expanded)).2 _ codeMember
          left
          rw [capital.toNat_ofNat]
          exact capital
      | none =>
          have same : upperCaseChar c = [c] := by
            rw [upperCaseChar, cased, expanded]
          rw [same, List.mem_singleton] at member
          exact Or.inr ⟨member, same⟩

theorem upperCaseChar_of_mem {c d : Char} (member : d ∈ upperCaseChar c)
    : upperCaseChar d = [d] := by
  rcases mem_upperCaseChar member with capital | ⟨rfl, same⟩
  · exact capital.upperCaseChar
  · exact same

theorem flatMap_upperCaseChar_eq {chars : List Char}
    (still : ∀ c ∈ chars, upperCaseChar c = [c])
    : chars.flatMap upperCaseChar = chars := by
  induction chars with
  | nil => rfl
  | cons c rest ih =>
      obtain ⟨first, others⟩ := List.forall_mem_cons.mp still
      rw [List.flatMap_cons, first, ih others]
      rfl

/-- A text in upper case stays as it is. -/
@[simp]
theorem upperCase_upperCase (text : String)
    : upperCase (upperCase text) = upperCase text := by
  rw [upperCase, upperCase, String.toList_ofList]
  congr 1
  refine flatMap_upperCaseChar_eq fun d member => ?_
  obtain ⟨c, _, becomes⟩ := List.mem_flatMap.mp member
  exact upperCaseChar_of_mem becomes

/-- Only the empty text becomes empty. -/
theorem upperCase_eq_empty_iff {text : String} : upperCase text = "" ↔ text = "" := by
  rw [upperCase, ← String.toList_inj, String.toList_ofList, ← String.toList_inj]
  simp only [String.toList_empty, List.flatMap_eq_nil_iff, upperCaseChar_ne_nil, imp_false]
  exact List.eq_nil_iff_forall_not_mem.symm

end FormulaLatex.Text
