import FormulaLatex.Proofs.Quick.CommandEnds

/-! Quick conversion and the commands that it writes. Whether all of them stay whole is settled by
the first search, the one for the constant: it takes every call of the constant away, and breaks a
command where text after a call runs into it. From then on commands are neither broken nor mended.
-/

namespace FormulaLatex.Quick

open Text Relation

variable {function other : Function} {inWord : Bool}
  {front body first back rest text next : List Char}

-----------------------------------------------------------------------------------------
-- The search for the constant
-----------------------------------------------------------------------------------------

/-- No call begins inside of parentheses that have no others in them. -/
theorem call?_append_closing (plain : ∀ c ∈ body, isParenthesis c = false)
    : call? function (body ++ ')' :: rest) = none := by
  cases found : call? function (body ++ ')' :: rest) with
  | none => rfl
  | some parts =>
      obtain ⟨⟨name, blanks, same, named, blank⟩, _⟩ := call?_eq_some_iff.mp found
      have plainHeading : ∀ c ∈ name ++ blanks, isParenthesis c = false := by
        intro c member
        rcases List.mem_append.mp member with inName | inBlanks
        · exact isParenthesis_eq_false_of_isWordCharacter (isWordCharacter_of_names named c inName)
        · exact isParenthesis_eq_false_of_isBlank (blank c inBlanks)
      have parentheses := (plain_append_injective plain plainHeading (by simp [isParenthesis])
        (by simp [isParenthesis]) same).2
      cases parentheses

/-- A call that begins later than the one at the beginning begins after it. -/
theorem HasCall.past_call (call : HasCall function front body back text) (later : front ≠ [])
    (found : call? other text = some (first, rest))
    : ∃ more, HasCall function more body back rest := by
  obtain ⟨apart, tail, same, called⟩ := hasCall_iff.mp call
  obtain ⟨⟨name, blanks, rfl, named, blank⟩, plain, _⟩ := call?_eq_some_iff.mp found
  obtain ⟨c, more, rfl, word⟩ := exists_cons_of_call? called
  rw [List.append_assoc] at same
  obtain ⟨middle, _, rfl, after⟩ :=
    exists_append_of_apart later apart (isWordCharacter_of_names named) same.symm
  -- The call begins with a word character, so neither in the white space nor with the parenthesis.
  have noWord : ∀ d ∈ blanks ++ ['('], isWordCharacter d = false := by
    intro d member
    rcases List.mem_append.mp member with inBlanks | isOpening
    · exact isWordCharacter_eq_false_of_isBlank (blank d inBlanks)
    · rw [List.mem_singleton.mp isOpening]
      exact isWordCharacter_eq_false_of_isParenthesis rfl
  rw [List.append_cons] at after
  rcases exists_of_append_eq_append_cons after with ⟨inside, rfl, follows⟩ | ⟨inside, within⟩
  · rcases exists_of_append_eq_append_cons follows.symm with ⟨inner, rfl, tail⟩ | ⟨between, rfl⟩
    · have noCall : call? function (c :: more) = none := by
        rw [tail]
        exact call?_append_closing fun d member => plain d (List.mem_append_right _ member)
      cases noCall.symm.trans called
    · rw [List.append_assoc] at follows
      have behind := (List.cons.inj (List.append_cancel_left follows)).2
      refine ⟨between, hasCall_iff.mpr ⟨?_, c :: more, behind, called⟩⟩
      refine endsInWord_of_suffix (c := ')') ⟨name ++ (blanks ++ ['('] ++ first), ?_⟩ apart
      simp
  · rw [noWord c (within ▸ by simp)] at word
    cases word

theorem HasCall.behind_call (call : HasCall function front body back rest)
    (found : call? other text = some (first, rest))
    : ∃ before, before ≠ [] ∧ HasCall function before body back text := by
  obtain ⟨apart, tail, rfl, called⟩ := hasCall_iff.mp call
  obtain ⟨⟨name, blanks, rfl, _⟩, _⟩ := call?_eq_some_iff.mp found
  refine ⟨name ++ blanks ++ '(' :: first ++ ')' :: front, by simp,
    hasCall_iff.mpr ⟨?_, tail, by simp, called⟩⟩
  rw [endsInWord_append (by simp)]
  cases front with
  | nil => exact isWordCharacter_eq_false_of_isParenthesis (c := ')') rfl
  | cons c front => rwa [← List.singleton_append, endsInWord_append (by simp)]

/-- Whether constants are apart is seen after the first one and then in what follows it. -/
theorem constantsApart_call_iff (found : call? .pi text = some (first, rest))
    : ConstantsApart text
        ↔ (call? .pi rest = none → runsOn rest = false) ∧ ConstantsApart rest := by
  constructor
  · intro all
    refine ⟨all [] first rest (hasCall_nil_iff.mpr found), fun front body back call => ?_⟩
    obtain ⟨before, _, whole⟩ := call.behind_call found
    exact all before body back whole
  · rintro ⟨atOnce, others⟩ front body back call
    by_cases later : front = []
    · subst later
      have same := found.symm.trans (hasCall_nil_iff.mp call)
      obtain ⟨rfl, rfl⟩ := Prod.mk.inj (Option.some.inj same)
      exact atOnce
    · obtain ⟨more, behind⟩ := call.past_call later found
      exact others more body back behind

/-- What a call of the constant consists of. -/
theorem not_mem_constant {name blanks : List Char} {c : Char}
    (named : Function.pi.names name = true) (blank : ∀ c ∈ blanks, isBlank c = true)
    (blankBody : ∀ c ∈ body, isBlank c = true) (noWord : isWordCharacter c = false)
    (noBlank : isBlank c = false) (noParenthesis : isParenthesis c = false)
    : c ∉ name ++ (blanks ++ '(' :: (body ++ [')'])) := by
  have empty : IsEmptyGroup (blanks ++ '(' :: (body ++ [')'])) :=
    ⟨blanks, body, rfl, blank, blankBody⟩
  rw [List.mem_append, not_or]
  refine ⟨fun member => ?_, empty.not_mem noBlank noParenthesis⟩
  rw [isWordCharacter_of_names named c member] at noWord
  cases noWord

/-- What a search leaves of a call of the constant is what it was. -/
theorem call?_of_typesetFrom
    (found : call? .pi (typesetFrom function inWord text) = some (body, back))
    : ∃ others, call? .pi text = some (body, others) := by
  obtain ⟨name, blanks, shape, named, blank, blankBody⟩ := call?_pi_eq_some_iff.mp found
  have absent := not_mem_constant named blank blankBody isWordCharacter_backslash
    (by decide) (by decide)
  rw [← List.append_assoc] at shape
  obtain ⟨others, same⟩ := exists_append_of_typesetFrom absent shape
  exact ⟨others, call?_pi_eq_some_iff.mpr
    ⟨name, blanks, same.trans (List.append_assoc ..), named, blank, blankBody⟩⟩

theorem runsOn_typesetFrom_pi (text : List Char)
    : runsOn (typesetFrom .pi false text) = true ↔ call? .pi text = none ∧ runsOn text = true := by
  cases found : call? .pi text with
  | some parts =>
      obtain ⟨more, shown⟩ := toLatex_eq_cons .pi parts.1
      have stands : runsOn ([] ++ '\\' :: (more ++ typesetFrom .pi false parts.2)) = runsOn [] :=
        runsOn_append_of_plain (by simp) (by decide)
      rw [typesetFrom_call found, shown, List.cons_append, ← List.nil_append ('\\' :: _), stands]
      exact iff_of_false (by decide) (by simp)
  | none =>
      have begins : ∀ {group : List Char}, IsEmptyGroup group →
          (group <+: typesetFrom .pi false text ↔ group <+: text) := by
        intro group empty
        constructor
        · rintro ⟨more, same⟩
          obtain ⟨others, rfl⟩ :=
            exists_append_of_typesetFrom (empty.not_mem (by decide) (by decide)) same.symm
          exact List.prefix_append _ _
        · rintro ⟨more, rfl⟩
          have kept := typesetFrom_append .pi [] group more fun middle last same nonempty _ => by
            obtain ⟨c, rest, rfl⟩ := List.exists_cons_of_ne_nil nonempty
            refine call?_eq_none ?_ _
            rcases empty.isBlank_or_isParenthesis c (same ▸ by simp) with blank | parenthesis
            · exact isWordCharacter_eq_false_of_isBlank blank
            · exact isWordCharacter_eq_false_of_isParenthesis parenthesis
          rw [endsInWord_nil] at kept
          rw [kept]
          exact List.prefix_append _ _
      rw [runsOn_iff, runsOn_iff, and_iff_right rfl]
      refine or_congr ?_ (exists_congr fun group => and_congr_right begins)
      cases text with
      | nil => rw [typesetFrom_nil]
      | cons c tail =>
          rw [typesetFrom_cons fun _ => found]
          rfl

/-- Whether the search for the constant breaks a command depends on the text after its calls. -/
theorem unbroken_typesetFrom_pi_iff (absent : '\\' ∉ text)
    : Unbroken (typesetFrom .pi inWord text)
        ↔ ∀ front body back, HasCall .pi front body back text → (front = [] → inWord = false) →
          call? .pi back = none → runsOn back = false := by
  fun_induction typesetFrom .pi inWord text with
  | case1 =>
      exact iff_of_true (afterBackslashes_of_not_mem (by simp)) fun _ _ _ call =>
        absurd call not_hasCall_nil
  | case2 inWord c tail first rest found ih =>
      split at found
      case isTrue => cases found
      rename_i noWord
      have outside : '\\' ∉ rest := by
        obtain ⟨⟨name, blanks, shape, _⟩, _⟩ := call?_eq_some_iff.mp found
        rw [shape] at absent
        exact fun member => absent (by simp [member])
      have here : runsOn (typesetFrom .pi false rest) = false
          ↔ (call? .pi rest = none → runsOn rest = false) := by
        have runs := not_congr (runsOn_typesetFrom_pi rest)
        simpa using runs
      have parts := constantsApart_call_iff found
      simp only [ConstantsApart] at parts
      rw [unbroken_toLatex_pi_iff, here, ih outside]
      simpa [noWord] using parts.symm
  | case3 inWord c tail noCall ih =>
      rw [List.mem_cons, not_or] at absent
      have shown : Unbroken (c :: typesetFrom .pi (isWordCharacter c) tail)
          ↔ Unbroken (typesetFrom .pi (isWordCharacter c) tail) :=
        afterBackslashes_cons.trans (and_iff_right fun same => absurd same.symm absent.1)
      rw [shown, ih absent.2]
      constructor
      · intro all front body back call begins
        cases front with
        | nil =>
            rw [begins rfl, dif_neg Bool.false_ne_true, hasCall_nil_iff.mp call] at noCall
            cases noCall
        | cons d front =>
            obtain ⟨rfl, later, apart⟩ := hasCall_cons_iff.mp call
            exact all front body back later apart
      · intro all front body back call begins
        exact all (c :: front) body back (hasCall_cons_iff.mpr ⟨rfl, call, begins⟩) (by simp)

/-- After a search for the constant its calls, if any, begin right after a backslash. -/
theorem HasCall.getLast?_eq_backslash
    (call : HasCall .pi front body back (typesetFrom .pi inWord text))
    (begins : front = [] → inWord = false)
    : front.getLast? = some '\\' := by
  fun_induction typesetFrom .pi inWord text generalizing front with
  | case1 => exact absurd call not_hasCall_nil
  | case2 inWord c tail first rest found ih =>
      have letters : isWordCharacter 'p' = true ∧ isWordCharacter 'i' = true := by
        decide +kernel
      -- The call begins with the backslash of the notation, in the name after it, or behind it.
      cases front with
      | nil =>
          rw [hasCall_nil_iff] at call
          cases call.symm.trans (call?_backslash ..)
      | cons d front =>
          obtain ⟨rfl, call, _⟩ := hasCall_cons_iff.mp call
          cases front with
          | nil => rfl
          | cons d front =>
              obtain ⟨rfl, call, begins⟩ := hasCall_cons_iff.mp call
              cases front with
              | nil => cases letters.1.symm.trans (begins rfl)
              | cons d front =>
                  obtain ⟨rfl, call, begins⟩ := hasCall_cons_iff.mp call
                  cases front with
                  | nil => cases letters.2.symm.trans (begins rfl)
                  | cons d front =>
                      have last := ih call (by simp)
                      exact last
  | case3 inWord c tail noCall ih =>
      cases front with
      | nil =>
          have noCallHere : call? .pi (c :: tail) = none := by
            simpa [begins rfl] using noCall
          have found := hasCall_nil_iff.mp call
          have shown : typesetFrom .pi false (c :: tail)
              = c :: typesetFrom .pi (isWordCharacter c) tail :=
            typesetFrom_cons fun _ => noCallHere
          rw [← shown] at found
          obtain ⟨others, earlier⟩ := call?_of_typesetFrom found
          rw [noCallHere] at earlier
          cases earlier
      | cons d front =>
          obtain ⟨rfl, later, apart⟩ := hasCall_cons_iff.mp call
          have last := ih later apart
          cases front with
          | nil => cases last
          | cons e front => exact last

-----------------------------------------------------------------------------------------
-- The searches after it
-----------------------------------------------------------------------------------------

/-- Typesetting a call of another function makes no call of the constant. -/
theorem HasCall.of_typeset {before inner after : List Char}
    (call : HasCall function front body back text) (argument : function ≠ .pi)
    (constant : HasCall .pi before inner after (front ++ (function.toLatex body ++ back)))
    : ∃ before after, HasCall .pi before inner after text := by
  obtain ⟨apart, tail, rfl, found⟩ := hasCall_iff.mp call
  obtain ⟨apartBefore, others, same, foundConstant⟩ := hasCall_iff.mp constant
  obtain ⟨name, blanks, rfl, named, blank, blankInner⟩ := call?_pi_eq_some_iff.mp foundConstant
  obtain ⟨opening, closing, opens, _, closes, shown⟩ := exists_toLatex_eq argument body
  have absent : ∀ {c}, isWordCharacter c = false → isBlank c = false → isParenthesis c = false →
      c ∉ name ++ (blanks ++ '(' :: (inner ++ [')'])) :=
    not_mem_constant named blank blankInner
  rw [shown, List.cons_append, ← List.append_assoc name] at same
  rcases before_or_after_of_not_mem (absent isWordCharacter_backslash (by decide) (by decide))
    same.symm with ⟨more, rfl, _⟩ | ⟨inside, rfl, behind⟩
  · refine ⟨before, more ++ tail, hasCall_iff.mpr ⟨apartBefore, _, List.append_assoc .., ?_⟩⟩
    exact call?_pi_eq_some_iff.mpr ⟨name, blanks, by simp, named, blank, blankInner⟩
  · have past : inside ++ (name ++ (blanks ++ '(' :: (inner ++ [')'])) ++ after)
        = function.commandWord ++ opening :: body ++ closing :: back := by
      rw [← behind]
      simp
    have noClosing : closing ∉ name ++ (blanks ++ '(' :: (inner ++ [')'])) := by
      obtain ⟨noWord, noBlank, noParenthesis⟩ : isWordCharacter closing = false
          ∧ isBlank closing = false ∧ isParenthesis closing = false := by
        simp only [List.mem_cons, List.not_mem_nil, or_false] at closes
        rcases closes with rfl | rfl <;> decide +kernel
      exact absent noWord noBlank noParenthesis
    rcases before_or_after_of_not_mem noClosing past with ⟨more, within, _⟩ | ⟨between, rfl, rfl⟩
    · have inside : '(' ∈ function.commandWord ++ opening :: body := within ▸ by simp
      have inNotation : '(' ∈ function.toLatex body := by
        rw [shown]
        simp only [List.mem_cons, List.mem_append] at inside ⊢
        exact Or.inr (inside.imp_right (Or.imp_right Or.inl))
      cases isParenthesis_of_mem_toLatex (call?_eq_some_iff.mp found).2.1 '(' inNotation
    · have apartBetween : endsInWord between = false :=
        endsInWord_of_suffix (c := closing)
          ⟨front ++ '\\' :: (function.commandWord ++ opening :: body), by simp⟩ apartBefore
      have inBack : HasCall .pi between inner after
          (between ++ (name ++ (blanks ++ '(' :: (inner ++ [')'])) ++ after)) :=
        hasCall_iff.mpr ⟨apartBetween, _, rfl, call?_pi_eq_some_iff.mpr
          ⟨name, blanks, List.append_assoc .., named, blank, blankInner⟩⟩
      obtain ⟨before, nonempty, inTail⟩ := inBack.behind_call found
      obtain ⟨apartTail, rest, rfl, foundTail⟩ := hasCall_iff.mp inTail
      refine ⟨front ++ before, after, hasCall_iff.mpr ⟨?_, rest, ?_, foundTail⟩⟩
      · rwa [endsInWord_append nonempty]
      · rw [List.append_assoc]

/-- The command of the constant is whole if no letter follows it. -/
theorem takeWhile_commandWord_mem_iff
    : (Function.pi.commandWord ++ text).takeWhile Char.isAlpha ∈ commandNames
        ↔ text.head?.any Char.isAlpha = false := by
  rw [List.takeWhile_append_of_pos (List.all_eq_true.mp (by decide))]
  cases text with
  | nil => decide
  | cons c rest =>
      change _ ↔ c.isAlpha = false
      cases alpha : c.isAlpha with
      | true =>
          rw [List.takeWhile_cons_of_pos alpha]
          simp [commandNames, Function.commandWord, Function.command]
      | false =>
          rw [List.takeWhile_cons_of_neg (Bool.eq_false_iff.mp alpha)]
          decide

/-- Of a text that has settled, the commands are whole if and only if none is broken. -/
theorem intact_iff_unbroken (known : AfterBackslashes Known text)
    (noCall : ∀ function front body back, ¬ HasCall function front body back text)
    : Intact text ↔ Unbroken text := by
  refine intact_iff.trans (afterBackslashes_congr fun rest ends => ?_)
  rcases known rest ends with first | ⟨function, more, rfl, opened⟩
  · obtain ⟨more, rfl⟩ := List.head?_eq_some_iff.mp first
    exact iff_of_false (by decide : [] ∉ commandNames) (by simp [broken])
  by_cases constant : function = .pi
  · subst constant
    have noGroup : (call? .pi (Function.pi.commandWord ++ more)).isSome = false := by
      refine Bool.eq_false_iff.mpr fun group => ?_
      obtain ⟨⟨body, back⟩, found⟩ := Option.isSome_iff_exists.mp group
      obtain ⟨before, rfl⟩ := ends
      refine noCall _ _ _ _ (hasCall_iff.mpr ⟨?_, _, List.append_cons .., found⟩)
      rw [endsInWord_append (by simp)]
      exact isWordCharacter_backslash
    change _ ↔ runsOn more = false
    rw [takeWhile_commandWord_mem_iff, runsOn, noGroup, Bool.or_false]
  · obtain ⟨opening, opens, _⟩ := exists_opening constant
    obtain ⟨tail, rfl⟩ := List.head?_eq_some_iff.mp (opened opening opens)
    cases function with
    | pi => exact absurd rfl constant
    | _ =>
        obtain rfl := Option.some.inj opens
        exact iff_of_true (List.mem_of_elem_eq_true rfl) rfl

-----------------------------------------------------------------------------------------
-- Conversion
-----------------------------------------------------------------------------------------

/-- From the first search on, no command is broken, and no call of the constant is made. -/
theorem unbroken_of_reaches (reaches : ReflTransGen TypesetsCall text next)
    (known : AfterBackslashes Known text) (unbroken : Unbroken text)
    (noConstant : ∀ front body back, ¬ HasCall .pi front body back text)
    : Unbroken next ∧ ∀ front body back, ¬ HasCall .pi front body back next := by
  have kept : AfterBackslashes Known next ∧ Unbroken next
      ∧ ∀ front body back, ¬ HasCall .pi front body back next := by
    refine TypesetsCall.kept (motive := fun text => AfterBackslashes Known text ∧ Unbroken text
      ∧ ∀ front body back, ¬ HasCall .pi front body back text) ?_ reaches
      ⟨known, unbroken, noConstant⟩
    rintro text _ step ⟨known, unbroken, noConstant⟩
    refine ⟨step.known known, ?_⟩
    obtain @⟨function, front, body, back, _, call⟩ := step
    have argument : function ≠ .pi := by
      rintro rfl
      exact noConstant _ _ _ call
    refine ⟨(call.unbroken_iff known).mpr ⟨unbroken, fun same => absurd same argument⟩, ?_⟩
    intro before inner after constant
    obtain ⟨_, _, earlier⟩ := call.of_typeset argument constant
    exact noConstant _ _ _ earlier
  exact kept.2

/-- No command is mended. -/
theorem unbroken_of_reached (reaches : ReflTransGen TypesetsCall text next)
    (known : AfterBackslashes Known text) (unbroken : Unbroken next)
    : Unbroken text := by
  by_contra torn
  have kept : AfterBackslashes Known next ∧ ¬ Unbroken next := by
    refine TypesetsCall.kept (motive := fun text => AfterBackslashes Known text ∧ ¬ Unbroken text)
      ?_ reaches ⟨known, torn⟩
    rintro text _ step ⟨known, torn⟩
    refine ⟨step.known known, fun mended => torn ?_⟩
    obtain @⟨function, front, body, back, _, call⟩ := step
    exact ((call.unbroken_iff known).mp mended).1
  exact kept.2 unbroken

/-- Where no command is broken, no call begins right after a backslash. -/
theorem not_hasCall_of_unbroken (known : AfterBackslashes Known text) (unbroken : Unbroken text)
    : ¬ HasCall function (front ++ ['\\']) body back text := by
  intro call
  obtain ⟨_, tail, same, found⟩ := hasCall_iff.mp call
  have ends : '\\' :: tail <:+ text := ⟨front, by rw [same, List.append_cons]⟩
  cases (unbroken tail ends).symm.trans (broken_of_call? (known tail ends) found)

/-- A text settles from what the search for the constant makes of it. -/
theorem reaches_settle_of_typeset_pi (text : List Char)
    : ReflTransGen TypesetsCall (typeset .pi text) (settle text) := by
  by_cases unchanged : pass text = text
  · rw [settle, dif_pos unchanged, typeset_eq_self unchanged .pi (mem_all .pi)]
  · rw [settle, dif_neg unchanged]
    exact (reaches_foldl_typeset Function.all.tail (typeset .pi text)).trans (reaches_settle _)

/-- If a formula has no backslash, its conversion has only whole commands of the notation if and
only if no text runs into the constant. In that case no call begins right after a backslash from
the search for the constant on, so that what was written is never rewritten.
-/
theorem convert_intact_iff {formula : String} (plain : '\\' ∉ formula.toList)
    : (Intact (convert formula).toList ↔ ConstantsApart (formulaText formula.toList))
      ∧ (ConstantsApart (formulaText formula.toList) →
        ∀ later, ReflTransGen TypesetsCall (typeset .pi (formulaText formula.toList)) later →
          ∀ function front body back, ¬ HasCall function (front ++ ['\\']) body back later) := by
  generalize shown : formulaText formula.toList = text
  have absent : '\\' ∉ text := by
    intro member
    rw [← shown] at member
    exact plain ((sublist_formulaText _).subset member)
  have known : ∀ {later}, ReflTransGen TypesetsCall text later → AfterBackslashes Known later :=
    fun reaches => TypesetsCall.kept TypesetsCall.known reaches (afterBackslashes_of_not_mem absent)
  have first := reaches_typeset .pi text
  have start : Unbroken (typeset .pi text) ↔ ConstantsApart text := by
    rw [typeset, unbroken_typesetFrom_pi_iff absent]
    simp [ConstantsApart]
  have noConstant : Unbroken (typeset .pi text) →
      ∀ front body back, ¬ HasCall .pi front body back (typeset .pi text) := by
    intro unbroken front body back call
    have last := call.getLast?_eq_backslash fun _ => rfl
    obtain ⟨before, rfl⟩ := List.getLast?_eq_some_iff.mp last
    exact not_hasCall_of_unbroken (known first) unbroken call
  constructor
  · have settled := intact_iff_unbroken (known (reaches_settle text)) fun _ _ _ _ =>
      not_hasCall_settle
    have reaches := reaches_settle_of_typeset_pi text
    rw [intact_convert_iff, shown, settled, ← start]
    exact ⟨unbroken_of_reached reaches (known first), fun unbroken =>
      (unbroken_of_reaches reaches (known first) unbroken (noConstant unbroken)).1⟩
  · intro apart later reaches function front body back
    have unbroken := start.mpr apart
    refine not_hasCall_of_unbroken (known (first.trans reaches)) ?_
    exact (unbroken_of_reaches reaches (known first) unbroken (noConstant unbroken)).1

/-- Constants in a row, and others before an operator, a closing parenthesis and a space. -/
theorem convert_intact_iff_constants
    : let formula := "=SUM(PI()*Sin(2*pi( )))<>PI()PI() - pi ()A1"
      '\\' ∉ formula.toList
      ∧ (Intact (convert formula).toList ↔ ConstantsApart (formulaText formula.toList))
      ∧ (ConstantsApart (formulaText formula.toList) →
        ∀ later, ReflTransGen TypesetsCall (typeset .pi (formulaText formula.toList)) later →
          ∀ function front body back, ¬ HasCall function (front ++ ['\\']) body back later) := by
  intro formula
  have plain : '\\' ∉ formula.toList := by
    decide +kernel
  exact ⟨plain, convert_intact_iff plain⟩

/-- The command of the constant and the name of a cell after it run together. -/
theorem not_convert_intact
    : ¬ ∀ formula : String, '\\' ∉ formula.toList → Intact (convert formula).toList := by
  intro all
  have plain : '\\' ∉ "=PI()A1".toList := by
    decide +kernel
  have torn : ¬ Intact (convert "=PI()A1").toList := by
    decide +kernel
  exact torn (all "=PI()A1" plain)

end FormulaLatex.Quick
