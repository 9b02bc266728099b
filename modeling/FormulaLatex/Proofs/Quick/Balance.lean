import FormulaLatex.Proofs.Quick.OtherText

/-! Quick conversion keeps balance. Typesetting a call exchanges a pair of parentheses for a pair of
braces, for a pair of stand-ins or for nothing, around a body in which as much is opened and closed
as before. Braces stay balanced whatever the body holds. Parentheses do because stand-ins come in
pairs between which no parenthesis stands, so that a body has both of a pair or none.
-/

namespace FormulaLatex.Quick

open Text Relation

-----------------------------------------------------------------------------------------
-- Depth
-----------------------------------------------------------------------------------------

section openAfter?

variable {opening closing : Char} {depth after : Nat} {text : List Char}

theorem openAfter?_opening (rest : List Char)
    : openAfter? opening closing depth (opening :: rest)
        = openAfter? opening closing (depth + 1) rest := by
  rw [openAfter?.eq_def]
  exact if_pos rfl

theorem openAfter?_closing (apart : closing ≠ opening) (rest : List Char)
    : openAfter? opening closing (depth + 1) (closing :: rest)
        = openAfter? opening closing depth rest := by
  rw [openAfter?.eq_def]
  exact (if_neg apart).trans (if_pos rfl)

theorem openAfter?_other {c : Char} (noOpening : c ≠ opening) (noClosing : c ≠ closing)
    (rest : List Char)
    : openAfter? opening closing depth (c :: rest) = openAfter? opening closing depth rest := by
  rw [openAfter?.eq_def]
  exact (if_neg noOpening).trans (if_neg noClosing)

theorem openAfter?_append (depth : Nat) (front back : List Char)
    : openAfter? opening closing depth (front ++ back)
        = (openAfter? opening closing depth front).bind fun depth =>
            openAfter? opening closing depth back := by
  induction front generalizing depth with
  | nil => rfl
  | cons c rest ih =>
      rw [List.cons_append, openAfter?.eq_def, openAfter?.eq_def _ _ _ (c :: rest)]
      dsimp only
      split
      · exact ih _
      · split
        · cases depth with
          | zero => rfl
          | succ depth => exact ih depth
        · exact ih depth

theorem openAfter?_of_absent (noOpening : opening ∉ text) (noClosing : closing ∉ text)
    : openAfter? opening closing depth text = some depth := by
  induction text with
  | nil => rfl
  | cons c rest ih =>
      rw [List.mem_cons, not_or] at noOpening noClosing
      rw [openAfter?_other (Ne.symm noOpening.1) (Ne.symm noClosing.1),
        ih noOpening.2 noClosing.2]

/-- What is open around a text stays open. -/
theorem openAfter?_add (opened : openAfter? opening closing depth text = some after)
    (more : Nat)
    : openAfter? opening closing (depth + more) text = some (after + more) := by
  induction text generalizing depth with
  | nil =>
      obtain rfl := Option.some.inj opened
      rfl
  | cons c rest ih =>
      rw [openAfter?.eq_def] at opened ⊢
      dsimp only at opened ⊢
      split
      · rename_i same
        rw [if_pos same] at opened
        rw [Nat.add_right_comm]
        exact ih opened
      · rename_i noOpening
        rw [if_neg noOpening] at opened
        split
        · rename_i same
          rw [if_pos same] at opened
          cases depth with
          | zero => cases opened
          | succ depth =>
              rw [Nat.add_right_comm]
              exact ih opened
        · rename_i noClosing
          rw [if_neg noClosing] at opened
          exact ih opened

/-- Only the characters that open and close count. -/
theorem openAfter?_filter {kept : Char → Bool} (keepsOpening : kept opening = true)
    (keepsClosing : kept closing = true) (depth : Nat) (text : List Char)
    : openAfter? opening closing depth (text.filter kept)
        = openAfter? opening closing depth text := by
  induction text generalizing depth with
  | nil => rfl
  | cons c rest ih =>
      cases keeps : kept c with
      | false =>
          have apart : ∀ {d}, kept d = true → c ≠ d := by
            rintro d kept rfl
            rw [keeps] at kept
            cases kept
          rw [List.filter_cons_of_neg (by simp [keeps]), ih,
            openAfter?_other (apart keepsOpening) (apart keepsClosing)]
      | true =>
          rw [List.filter_cons_of_pos keeps, openAfter?.eq_def, openAfter?.eq_def _ _ _ (c :: rest)]
          dsimp only
          simp only [ih]

/-- A pair around a text closes what it opens. -/
theorem openAfter?_enclosed (apart : closing ≠ opening)
    (opened : openAfter? opening closing depth text = some after)
    : openAfter? opening closing depth (opening :: text ++ [closing]) = some after := by
  rw [openAfter?_append, openAfter?_opening, openAfter?_add opened, Option.bind_some,
    openAfter?_closing apart]
  rfl

theorem openAfter?_surrounded {first last : Char} (noOpening : opening ∉ [first, last])
    (noClosing : closing ∉ [first, last])
    (opened : openAfter? opening closing depth text = some after)
    : openAfter? opening closing depth (first :: text ++ [last]) = some after := by
  simp only [List.mem_cons, List.not_mem_nil, or_false, not_or] at noOpening noClosing
  rw [openAfter?_append, openAfter?_other (Ne.symm noOpening.1) (Ne.symm noClosing.1), opened,
    Option.bind_some, openAfter?_other (Ne.symm noOpening.2) (Ne.symm noClosing.2)]
  rfl

end openAfter?

-----------------------------------------------------------------------------------------
-- Notation
-----------------------------------------------------------------------------------------

/-- The characters that open or close something: braces, parentheses and their stand-ins. -/
def brackets : List Char :=
  ['\x7b', '\x7d', '(', ')', Function.keptOpening, Function.keptClosing]

theorem isLasting_of_brackets : ∀ c ∈ brackets, isLasting c = true :=
  List.all_eq_true.mp (by decide)

theorem apart_of_brackets {c : Char} (bracket : c ∈ brackets)
    : isWordCharacter c = false ∧ isBlank c = false := by
  have all : brackets.all (fun c => !isWordCharacter c && !isBlank c) = true := by
    decide +kernel
  have here := List.all_eq_true.mp all c bracket
  rwa [Bool.and_eq_true, Bool.not_eq_true', Bool.not_eq_true'] at here

variable {function : Function} {body text next : List Char}

theorem not_mem_of_brackets {name blanks : List Char} {c : Char} (bracket : c ∈ brackets)
    (named : function.names name = true) (blank : ∀ c ∈ blanks, isBlank c = true)
    : c ∉ name ++ blanks := by
  intro member
  rcases List.mem_append.mp member with inName | inBlanks
  · have word := isWordCharacter_of_names named c inName
    rw [(apart_of_brackets bracket).1] at word
    cases word
  · have clash := blank c inBlanks
    rw [(apart_of_brackets bracket).2] at clash
    cases clash

theorem not_mem_command_of_brackets {c : Char} (bracket : c ∈ brackets) (function : Function)
    : c ∉ function.command := by
  have all : Function.all.all (fun function => brackets.all (!function.command.contains ·))
      = true := by
    decide
  simpa using List.all_eq_true.mp (List.all_eq_true.mp all function (mem_all function)) c bracket

/-- The notation of a call opens and closes as much as the body does, both of braces and of
stand-ins.
-/
theorem openAfter?_toLatex {opening closing : Char} {depth after : Nat}
    (pair : (opening, closing) ∈ [('\x7b', '\x7d'), (Function.keptOpening, Function.keptClosing)])
    (accepted : function.accepts body = true)
    (opened : openAfter? opening closing depth body = some after)
    : openAfter? opening closing depth (function.toLatex body) = some after := by
  have known : opening ∈ brackets ∧ closing ∈ brackets := by
    simp only [List.mem_cons, Prod.mk.injEq, List.not_mem_nil, or_false] at pair
    rcases pair with ⟨rfl, rfl⟩ | ⟨rfl, rfl⟩ <;> decide
  have command : openAfter? opening closing depth function.command = some depth :=
    openAfter?_of_absent (not_mem_command_of_brackets known.1 function)
      (not_mem_command_of_brackets known.2 function)
  have braces : openAfter? opening closing depth ('\x7b' :: body ++ ['\x7d']) = some after := by
    simp only [List.mem_cons, Prod.mk.injEq, List.not_mem_nil, or_false] at pair
    rcases pair with ⟨rfl, rfl⟩ | ⟨rfl, rfl⟩
    · exact openAfter?_enclosed (by decide) opened
    · exact openAfter?_surrounded (by decide) (by decide) opened
  have standIns : openAfter? opening closing depth
      (Function.keptOpening :: body ++ [Function.keptClosing]) = some after := by
    simp only [List.mem_cons, Prod.mk.injEq, List.not_mem_nil, or_false] at pair
    rcases pair with ⟨rfl, rfl⟩ | ⟨rfl, rfl⟩
    · exact openAfter?_surrounded (by decide) (by decide) opened
    · exact openAfter?_enclosed (by decide) opened
  cases function with
  | pi =>
      have blank : ∀ {c}, c ∈ brackets → c ∉ body := by
        intro c bracket member
        have clash := List.all_eq_true.mp accepted c member
        rw [(apart_of_brackets bracket).2] at clash
        cases clash
      rw [openAfter?_of_absent (blank known.1) (blank known.2)] at opened
      exact command.trans opened
  | sum | sqrt | average =>
      rw [Function.toLatex, List.append_assoc, openAfter?_append, command, Option.bind_some, braces]
  | sin | cos | tan | log =>
      rw [Function.toLatex, List.append_assoc, openAfter?_append, command, Option.bind_some,
        standIns]

-----------------------------------------------------------------------------------------
-- Stand-ins
-----------------------------------------------------------------------------------------

/-- How many stand-ins are open after a text, if `depth` of them are open before it and the text
closes none but what is open. Where a parenthesis stands, none may be open.
-/
def standInsAfter? : Nat → List Char → Option Nat
  | depth, [] => some depth
  | depth, c :: rest =>
      if isParenthesis c then
        if depth = 0 then standInsAfter? 0 rest else none
      else (openAfter? Function.keptOpening Function.keptClosing depth [c]).bind fun depth =>
        standInsAfter? depth rest

theorem standInsAfter?_append (depth : Nat) (front back : List Char)
    : standInsAfter? depth (front ++ back)
        = (standInsAfter? depth front).bind fun depth => standInsAfter? depth back := by
  induction front generalizing depth with
  | nil => rfl
  | cons c rest ih =>
      rw [List.cons_append, standInsAfter?, standInsAfter?]
      split
      · split
        · exact ih 0
        · rfl
      · rw [Option.bind_assoc]
        congr 1
        funext depth
        exact ih depth

theorem standInsAfter?_of_plain (plain : ∀ c ∈ text, isParenthesis c = false) (depth : Nat)
    : standInsAfter? depth text
        = openAfter? Function.keptOpening Function.keptClosing depth text := by
  induction text generalizing depth with
  | nil => rfl
  | cons c rest ih =>
      obtain ⟨first, others⟩ := List.forall_mem_cons.mp plain
      have cut : openAfter? Function.keptOpening Function.keptClosing depth (c :: rest) = _ :=
        openAfter?_append depth [c] rest
      rw [standInsAfter?, if_neg (by simp [first]), cut]
      congr 1
      funext depth
      exact ih others depth

theorem standInsAfter?_parenthesis {c : Char} (parenthesis : isParenthesis c = true)
    {depth after : Nat} {rest : List Char}
    : standInsAfter? depth (c :: rest) = some after
        ↔ depth = 0 ∧ standInsAfter? 0 rest = some after := by
  rw [standInsAfter?, if_pos parenthesis]
  by_cases closed : depth = 0 <;> simp [closed]

theorem standInsAfter?_of_noStandIn (noStandIn : NoStandIn text)
    : standInsAfter? 0 text = some 0 := by
  induction text with
  | nil => rfl
  | cons c rest ih =>
      obtain ⟨⟨noOpening, noClosing⟩, others⟩ := List.forall_mem_cons.mp noStandIn
      rw [standInsAfter?, openAfter?_other noOpening noClosing]
      split
      · exact ih others
      · exact ih others

/-- Restoring parentheses adds the stand-ins that are open to the parentheses that are. -/
theorem openAfter?_restoreParentheses {depth after inner innerAfter : Nat}
    (opened : openAfter? '(' ')' depth text = some after)
    (standIns : standInsAfter? inner text = some innerAfter)
    : openAfter? '(' ')' (depth + inner) (restoreParentheses text)
        = some (after + innerAfter) := by
  induction text generalizing depth inner with
  | nil =>
      obtain rfl := Option.some.inj opened
      obtain rfl := Option.some.inj standIns
      rfl
  | cons c rest ih =>
      by_cases opens : c = '('
      · subst opens
        obtain ⟨rfl, inside⟩ := (standInsAfter?_parenthesis rfl).mp standIns
        rw [openAfter?_opening] at opened
        have later := ih opened inside
        exact (openAfter?_opening _).trans later
      by_cases closes : c = ')'
      · subst closes
        obtain ⟨rfl, inside⟩ := (standInsAfter?_parenthesis rfl).mp standIns
        cases depth with
        | zero => cases opened
        | succ depth =>
            rw [openAfter?_closing (by decide)] at opened
            exact (openAfter?_closing (by decide) _).trans (ih opened inside)
      have parenthesis : isParenthesis c = false := by
        simp [isParenthesis, opens, closes]
      rw [openAfter?_other opens closes] at opened
      rw [standInsAfter?, if_neg (by simp [parenthesis])] at standIns
      by_cases standsForOpening : c = Function.keptOpening
      · subst standsForOpening
        rw [openAfter?_opening] at standIns
        have later := ih opened standIns
        exact (openAfter?_opening _).trans later
      by_cases standsForClosing : c = Function.keptClosing
      · subst standsForClosing
        cases inner with
        | zero => cases standIns
        | succ inner =>
            rw [openAfter?_closing (by decide)] at standIns
            exact (openAfter?_closing (by decide) _).trans (ih opened standIns)
      · rw [openAfter?_other standsForOpening standsForClosing] at standIns
        have kept : restoreParentheses (c :: rest) = c :: restoreParentheses rest := by
          simp [restoreParentheses, standsForOpening, standsForClosing]
        rw [kept, openAfter?_other opens closes]
        exact ih opened standIns

-----------------------------------------------------------------------------------------
-- Steps
-----------------------------------------------------------------------------------------

/-- A step leaves as many braces open as were open before it. -/
theorem TypesetsCall.openAfter?_braces (step : TypesetsCall text next) {depth after : Nat}
    (opened : openAfter? '\x7b' '\x7d' depth text = some after)
    : openAfter? '\x7b' '\x7d' depth next = some after := by
  obtain @⟨function, front, body, back, _, call⟩ := step
  obtain ⟨name, blanks, rfl, named, blank⟩ := call.spelled
  have heading : ∀ depth, openAfter? '\x7b' '\x7d' depth (name ++ blanks) = some depth :=
    fun depth => openAfter?_of_absent (not_mem_of_brackets (by decide) named blank)
      (not_mem_of_brackets (by decide) named blank)
  rw [openAfter?_append, Option.bind_eq_some_iff] at opened ⊢
  obtain ⟨before, inFront, opened⟩ := opened
  refine ⟨before, inFront, ?_⟩
  rw [openAfter?_append, heading, Option.bind_some, openAfter?_other (by decide) (by decide),
    openAfter?_append, Option.bind_eq_some_iff] at opened
  obtain ⟨inner, inBody, opened⟩ := opened
  rw [openAfter?_other (by decide) (by decide)] at opened
  rw [openAfter?_append, openAfter?_toLatex (by decide) call.accepted inBody, Option.bind_some,
    opened]

/-- Parentheses are balanced with their stand-ins between them. -/
structure Sealed (after : Nat) (text : List Char) : Prop where
  parentheses : openAfter? '(' ')' 0 text = some after
  standIns : standInsAfter? 0 text = some 0

theorem TypesetsCall.sealed (step : TypesetsCall text next) {after : Nat}
    (isSealed : Sealed after text)
    : Sealed after next := by
  obtain @⟨function, front, body, back, _, call⟩ := step
  obtain ⟨name, blanks, rfl, named, blank⟩ := call.spelled
  have absent : ∀ {c}, c ∈ brackets → c ∉ name ++ blanks := fun bracket =>
    not_mem_of_brackets bracket named blank
  have plainHeading : ∀ c ∈ name ++ blanks, isParenthesis c = false := by
    intro c member
    rw [Bool.eq_false_iff]
    intro parenthesis
    simp only [isParenthesis, Bool.or_eq_true, beq_iff_eq] at parenthesis
    rcases parenthesis with rfl | rfl <;> exact absent (by decide) member
  have plainNotation : ∀ c ∈ function.toLatex body, isParenthesis c = false :=
    isParenthesis_of_mem_toLatex call.plain
  have noParenthesis : ∀ {text : List Char} {depth : Nat}, (∀ c ∈ text, isParenthesis c = false) →
      openAfter? '(' ')' depth text = some depth := by
    intro text depth plain
    refine openAfter?_of_absent (fun member => ?_) fun member => ?_
    · cases plain _ member
    · cases plain _ member
  obtain ⟨parentheses, standIns⟩ := isSealed
  constructor
  · rw [openAfter?_append, Option.bind_eq_some_iff] at parentheses ⊢
    obtain ⟨before, inFront, parentheses⟩ := parentheses
    refine ⟨before, inFront, ?_⟩
    rw [openAfter?_append, noParenthesis plainHeading, Option.bind_some, openAfter?_opening,
      openAfter?_append, noParenthesis call.plain, Option.bind_some,
      openAfter?_closing (by decide)] at parentheses
    rw [openAfter?_append, noParenthesis plainNotation, Option.bind_some, parentheses]
  · rw [standInsAfter?_append, Option.bind_eq_some_iff] at standIns ⊢
    obtain ⟨before, inFront, standIns⟩ := standIns
    refine ⟨before, inFront, ?_⟩
    -- Both parentheses of the call say that no stand-in is open where they stand.
    rw [standInsAfter?_append, standInsAfter?_of_plain plainHeading,
      openAfter?_of_absent (absent (by decide)) (absent (by decide)), Option.bind_some,
      standInsAfter?_parenthesis rfl] at standIns
    obtain ⟨rfl, standIns⟩ := standIns
    rw [standInsAfter?_append, Option.bind_eq_some_iff] at standIns
    obtain ⟨inner, inBody, closed⟩ := standIns
    obtain ⟨rfl, standIns⟩ := (standInsAfter?_parenthesis rfl).mp closed
    rw [standInsAfter?_of_plain call.plain] at inBody
    rw [standInsAfter?_append, standInsAfter?_of_plain plainNotation,
      openAfter?_toLatex (by decide) call.accepted inBody, Option.bind_some]
    exact standIns

-----------------------------------------------------------------------------------------
-- Conversion
-----------------------------------------------------------------------------------------

theorem openAfter?_restoreParentheses_braces (depth : Nat) (text : List Char)
    : openAfter? '\x7b' '\x7d' depth (restoreParentheses text)
        = openAfter? '\x7b' '\x7d' depth text := by
  induction text generalizing depth with
  | nil => rfl
  | cons c rest ih =>
      have restored : restoreParentheses (c :: rest)
          = (if c = Function.keptOpening then '(' else if c = Function.keptClosing then ')' else c)
            :: restoreParentheses rest :=
        rfl
      rw [restored]
      split
      · rename_i same
        rw [openAfter?_other (by decide) (by decide), ih,
          openAfter?_other (by rw [same]; decide) (by rw [same]; decide)]
      · split
        · rename_i same
          rw [openAfter?_other (by decide) (by decide), ih,
            openAfter?_other (by rw [same]; decide) (by rw [same]; decide)]
        · rw [openAfter?.eq_def, openAfter?.eq_def _ _ _ (c :: rest)]
          dsimp only
          simp only [ih]

section known

variable {opening closing : Char} (known : opening ∈ brackets ∧ closing ∈ brackets)
include known

theorem openAfter?_formulaText (depth : Nat) (text : List Char)
    : openAfter? opening closing depth (formulaText text)
        = openAfter? opening closing depth text := by
  have keeps := fun text => openAfter?_filter (isLasting_of_brackets _ known.1)
    (isLasting_of_brackets _ known.2) depth text
  rw [← keeps, filter_isLasting_formulaText, keeps]

theorem openAfter?_convert (depth : Nat) (formula : String)
    : openAfter? opening closing depth (convert formula).toList
        = openAfter? opening closing depth
          (restoreParentheses (settle (formulaText formula.toList))) := by
  have keeps := fun text => openAfter?_filter (isLasting_of_brackets _ known.1)
    (isLasting_of_brackets _ known.2) depth text
  rw [← keeps, filter_isLasting_convert, keeps]

end known

/-- Quick conversion keeps braces balanced, and parentheses unless the formula has characters that
stand in for them: what is balanced in the formula is balanced in its notation, however calls,
parentheses and braces are interleaved.
-/
theorem convert_balanced (formula : String)
    : (Balanced '\x7b' '\x7d' formula.toList → Balanced '\x7b' '\x7d' (convert formula).toList)
      ∧ (NoStandIn formula.toList → Balanced '(' ')' formula.toList →
        Balanced '(' ')' (convert formula).toList) := by
  have braces : '\x7b' ∈ brackets ∧ '\x7d' ∈ brackets := by
    decide
  have parentheses : '(' ∈ brackets ∧ ')' ∈ brackets := by
    decide
  constructor
  · intro balanced
    have start : openAfter? '\x7b' '\x7d' 0 (formulaText formula.toList) = some 0 := by
      rw [openAfter?_formulaText braces]
      exact balanced
    rw [Balanced, openAfter?_convert braces, openAfter?_restoreParentheses_braces]
    exact TypesetsCall.kept (fun step => step.openAfter?_braces) (reaches_settle _) start
  · intro noStandIn balanced
    have start : Sealed 0 (formulaText formula.toList) := by
      constructor
      · rw [openAfter?_formulaText parentheses]
        exact balanced
      · exact standInsAfter?_of_noStandIn fun c member =>
          noStandIn c ((sublist_formulaText _).subset member)
    have finish := TypesetsCall.kept (fun step => step.sealed) (reaches_settle _) start
    rw [Balanced, openAfter?_convert parentheses]
    exact openAfter?_restoreParentheses finish.parentheses finish.standIns

/-- Braces that cross calls, and calls in parentheses of their own. -/
theorem convert_balanced_crossing
    : let formula := "=\x7bSUM(\x7d(SIN(A1)+PI())*2, Sqrt (TAN(\x7b)))\x7d"
      Balanced '\x7b' '\x7d' formula.toList ∧ Balanced '\x7b' '\x7d' (convert formula).toList
        ∧ NoStandIn formula.toList ∧ Balanced '(' ')' formula.toList
        ∧ Balanced '(' ')' (convert formula).toList := by
  intro formula
  have braces : Balanced '\x7b' '\x7d' formula.toList := by
    decide +kernel
  have noStandIn : NoStandIn formula.toList := by
    decide +kernel
  have parentheses : Balanced '(' ')' formula.toList := by
    decide +kernel
  exact ⟨braces, (convert_balanced formula).1 braces, noStandIn, parentheses,
    (convert_balanced formula).2 noStandIn parentheses⟩

end FormulaLatex.Quick
