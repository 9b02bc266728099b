import FormulaLatex.Proofs.Quick.OtherText

/-! The commands that the backslashes of a text begin. What a conversion does after typesetting the
calls leaves every command as it is and adds the commands of operators.
-/

namespace FormulaLatex.Quick

open Text

/-- The runs of letters of ASCII that stand right after the backslashes of a text. -/
def commandsIn : List Char → List (List Char)
  | [] => []
  | c :: rest =>
      if c = '\\' then rest.takeWhile Char.isAlpha :: commandsIn rest else commandsIn rest

/-- The commands of the notation, of functions and of operators. -/
def commandNames : List (List Char) :=
  [['s', 'u', 'm'], ['s', 'q', 'r', 't'], ['o', 'v', 'e', 'r', 'l', 'i', 'n', 'e'], ['p', 'i'],
    ['s', 'i', 'n'], ['c', 'o', 's'], ['t', 'a', 'n'], ['l', 'o', 'g'], ['n', 'e', 'q'],
    ['l', 'e', 'q'], ['g', 'e', 'q'], ['c', 'd', 'o', 't']]

/-- Whether every backslash of a text begins a command of the notation. -/
def Intact (text : List Char) : Prop :=
  ∀ command ∈ commandsIn text, command ∈ commandNames

instance : DecidablePred Intact :=
  fun text => List.decidableBAll _ (commandsIn text)

variable {front back text : List Char}

-----------------------------------------------------------------------------------------
-- Backslashes
-----------------------------------------------------------------------------------------

/-- Whether all that follows a backslash in a text, up to the end of the text, has a property. -/
def AfterBackslashes (property : List Char → Prop) (text : List Char) : Prop :=
  ∀ rest, '\\' :: rest <:+ text → property rest

section AfterBackslashes

variable {property : List Char → Prop}

theorem afterBackslashes_cons {c : Char} {rest : List Char}
    : AfterBackslashes property (c :: rest)
        ↔ (c = '\\' → property rest) ∧ AfterBackslashes property rest := by
  constructor
  · intro all
    refine ⟨?_, fun tail ends => all tail (ends.trans (List.suffix_cons c rest))⟩
    rintro rfl
    exact all rest (List.suffix_refl _)
  · rintro ⟨first, others⟩ tail ends
    rcases List.suffix_cons_iff.mp ends with same | inRest
    · obtain ⟨rfl, rfl⟩ := List.cons.inj same
      exact first rfl
    · exact others tail inRest

theorem afterBackslashes_append
    : AfterBackslashes property (front ++ back)
        ↔ AfterBackslashes (fun rest => property (rest ++ back)) front
          ∧ AfterBackslashes property back := by
  induction front with
  | nil => simp [AfterBackslashes]
  | cons c rest ih =>
      rw [List.cons_append, afterBackslashes_cons, afterBackslashes_cons, ih, and_assoc]

theorem afterBackslashes_congr {other : List Char → Prop}
    (same : ∀ rest, '\\' :: rest <:+ text → (property rest ↔ other rest))
    : AfterBackslashes property text ↔ AfterBackslashes other text :=
  forall_congr' fun rest => forall_congr' fun ends => same rest ends

theorem afterBackslashes_of_not_mem (absent : '\\' ∉ text) : AfterBackslashes property text :=
  fun _ ends => absurd (ends.mem List.mem_cons_self) absent

theorem intact_iff
    : Intact text
        ↔ AfterBackslashes (fun rest => rest.takeWhile Char.isAlpha ∈ commandNames) text := by
  rw [Intact]
  induction text with
  | nil => simp [commandsIn, AfterBackslashes]
  | cons c rest ih =>
      rw [afterBackslashes_cons, ← ih, commandsIn]
      split
      · rename_i same
        simp [same]
      · rename_i other
        simp [other]

end AfterBackslashes

-----------------------------------------------------------------------------------------
-- Stages of a conversion
-----------------------------------------------------------------------------------------

theorem commandsIn_append_of_not_mem (absent : '\\' ∉ front) (back : List Char)
    : commandsIn (front ++ back) = commandsIn back := by
  induction front with
  | nil => rfl
  | cons c rest ih =>
      rw [List.mem_cons, not_or] at absent
      rw [List.cons_append, commandsIn, if_neg (Ne.symm absent.1), ih absent.2]

theorem takeWhile_isAlpha_append_of_isBlank {blanks : List Char}
    (blank : ∀ c ∈ blanks, isBlank c = true) (text : List Char)
    : (text ++ blanks).takeWhile Char.isAlpha = text.takeWhile Char.isAlpha := by
  induction text with
  | nil =>
      cases blanks with
      | nil => rfl
      | cons c rest =>
          refine List.takeWhile_cons_of_neg fun alpha => ?_
          have clash := blank c List.mem_cons_self
          rw [isBlank_eq_false_of_isAlpha alpha] at clash
          cases clash
  | cons c rest ih => rw [List.cons_append, List.takeWhile_cons, List.takeWhile_cons, ih]

theorem commandsIn_append_of_isBlank {blanks : List Char}
    (blank : ∀ c ∈ blanks, isBlank c = true) (text : List Char)
    : commandsIn (text ++ blanks) = commandsIn text := by
  induction text with
  | nil =>
      have none := commandsIn_append_of_not_mem (backslash_not_mem_of_isBlank blank) []
      rwa [List.append_nil] at none
  | cons c rest ih =>
      rw [List.cons_append, commandsIn, commandsIn, takeWhile_isAlpha_append_of_isBlank blank, ih]

theorem commandsIn_trim (text : List Char) : commandsIn (trim text) = commandsIn text := by
  have ends := List.rdropWhile_append_rtakeWhile (p := isBlank) (l := trimStart text)
  have atStart := commandsIn_append_of_not_mem
    (backslash_not_mem_of_isBlank fun c member => List.mem_takeWhile_imp (l := text) member)
    (trimStart text)
  have atEnd := commandsIn_append_of_isBlank
    (fun c member => List.mem_rtakeWhile_imp (l := trimStart text) member) (trim text)
  rw [trimStart, List.takeWhile_append_dropWhile] at atStart
  rw [← atEnd, atStart]
  exact congrArg commandsIn ends

theorem commandsIn_collapseBlanksFrom (afterBlank : Bool) (text : List Char)
    : commandsIn (collapseBlanksFrom afterBlank text) = commandsIn text := by
  have run : ∀ rest, (collapseBlanksFrom false rest).takeWhile Char.isAlpha
      = rest.takeWhile Char.isAlpha := by
    intro rest
    induction rest with
    | nil => rfl
    | cons c rest ih =>
        rw [collapseBlanksFrom]
        split
        · rename_i blank
          have noLetter : ¬ c.isAlpha = true := by
            intro alpha
            rw [isBlank_eq_false_of_isAlpha alpha] at blank
            cases blank
          rw [if_neg Bool.false_ne_true, List.takeWhile_cons_of_neg noLetter]
          rfl
        · rw [List.takeWhile_cons, List.takeWhile_cons, ih]
  have noBackslash : ∀ {c}, isBlank c = true → c ≠ '\\' := by
    rintro c blank rfl
    cases blank
  fun_induction collapseBlanksFrom afterBlank text with
  | case1 => rfl
  | case2 c rest blank ih => rw [ih, commandsIn, if_neg (noBackslash blank)]
  | case3 afterBlank c rest blank written ih =>
      rw [commandsIn, if_neg (by decide), ih, commandsIn, if_neg (noBackslash blank)]
  | case4 afterBlank c rest visible ih => rw [commandsIn, commandsIn, run, ih]

theorem commandsIn_map {change : Char → Char}
    (keeps : ∀ c, change c = c
      ∨ (c.isAlpha = false ∧ c ≠ '\\') ∧ (change c).isAlpha = false ∧ change c ≠ '\\')
    (text : List Char)
    : commandsIn (text.map change) = commandsIn text := by
  have run : ∀ rest : List Char,
      (rest.map change).takeWhile Char.isAlpha = rest.takeWhile Char.isAlpha := by
    intro rest
    induction rest with
    | nil => rfl
    | cons c rest ih =>
        rw [List.map_cons]
        rcases keeps c with same | ⟨before, after⟩
        · rw [same, List.takeWhile_cons, List.takeWhile_cons, ih]
        · rw [List.takeWhile_cons_of_neg (by simp [after]),
            List.takeWhile_cons_of_neg (by simp [before])]
  induction text with
  | nil => rfl
  | cons c rest ih =>
      rw [List.map_cons, commandsIn, commandsIn, run, ih]
      rcases keeps c with same | ⟨before, after⟩
      · rw [same]
      · rw [if_neg before.2, if_neg after.2]

theorem commandsIn_restoreParentheses (text : List Char)
    : commandsIn (restoreParentheses text) = commandsIn text := by
  refine commandsIn_map (fun c => ?_) text
  by_cases opening : c = Function.keptOpening
  · subst opening
    exact Or.inr (by decide)
  by_cases closing : c = Function.keptClosing
  · subst closing
    exact Or.inr (by decide)
  · rw [if_neg opening, if_neg closing]
    exact Or.inl rfl

/-- Displaying operators adds commands of the notation. -/
theorem intact_displayOperators : Intact (displayOperators text) ↔ Intact text := by
  have run : ∀ text, (displayOperators text).takeWhile Char.isAlpha
      = text.takeWhile Char.isAlpha := by
    intro text
    fun_induction displayOperators text with
    | case5 c rest _ _ _ _ ih => rw [List.takeWhile_cons, List.takeWhile_cons, ih]
    | case6 => rfl
    | _ => rfl
  have added : ∀ (command : List Char) {rest}, command ∈ commandNames →
      (Intact (displayOperators rest) ↔ Intact rest) →
      ((∀ other ∈ command :: commandsIn (displayOperators rest), other ∈ commandNames)
        ↔ Intact rest) := by
    intro command rest known ih
    rw [List.forall_mem_cons, and_iff_right known]
    exact ih
  fun_induction displayOperators text with
  | case1 rest ih => exact added ['n', 'e', 'q'] (by decide) ih
  | case2 rest ih => exact added ['l', 'e', 'q'] (by decide) ih
  | case3 rest ih => exact added ['g', 'e', 'q'] (by decide) ih
  | case4 rest ih => exact added ['c', 'd', 'o', 't'] (by decide) ih
  | case5 c rest _ _ _ _ ih =>
      rw [Intact, Intact] at ih ⊢
      rw [commandsIn, commandsIn, run]
      split
      · rw [List.forall_mem_cons, List.forall_mem_cons]
        exact and_congr_right fun _ => ih
      · exact ih
  | case6 => exact Iff.rfl

/-- What comes after typesetting the calls neither breaks a command nor mends one. -/
theorem intact_convert_iff (formula : String)
    : Intact (convert formula).toList ↔ Intact (settle (formulaText formula.toList)) := by
  rw [convert, String.toList_ofList, Intact, collapseBlanks, commandsIn_collapseBlanksFrom,
    commandsIn_trim, ← Intact, replaceOperators_eq, intact_displayOperators, Intact,
    commandsIn_restoreParentheses, ← Intact]

end FormulaLatex.Quick
