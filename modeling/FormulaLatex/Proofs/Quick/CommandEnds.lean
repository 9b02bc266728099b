import FormulaLatex.Proofs.Quick.Commands

/-! Where commands end. Every command of a function but the constant is kept apart from what follows
it by what opens its argument. The command of the constant runs into a letter, and with empty
parentheses it is read as a call once more. Typesetting a call keeps every command apart that was,
and breaks only what it writes right before such text.
-/

namespace FormulaLatex.Quick

open Text Relation

variable {function other : Function} {inWord : Bool}
  {front body back rest text next : List Char}

-----------------------------------------------------------------------------------------
-- Constants
-----------------------------------------------------------------------------------------

/-- The command of a function without its backslash. -/
def Function.commandWord (function : Function) : List Char :=
  function.command.tail

/-- Whether a text runs into the command of the constant right in front of it: a letter makes
another command of it, and empty parentheses make it a call.
-/
def runsOn (text : List Char) : Bool :=
  text.head?.any Char.isAlpha || (call? .pi (Function.pi.commandWord ++ text)).isSome

/-- No call of the constant has text after it that runs into the command, other than another call of
the constant.
-/
def ConstantsApart (text : List Char) : Prop :=
  ∀ front body back, HasCall .pi front body back text → call? .pi back = none → runsOn back = false

/-- A pair of parentheses with nothing but white space in front of them and between them. -/
def IsEmptyGroup (group : List Char) : Prop :=
  ∃ blanks body, group = blanks ++ '(' :: (body ++ [')'])
    ∧ (∀ c ∈ blanks, isBlank c = true) ∧ ∀ c ∈ body, isBlank c = true

theorem IsEmptyGroup.isBlank_or_isParenthesis {group : List Char} (empty : IsEmptyGroup group)
    : ∀ c ∈ group, isBlank c = true ∨ isParenthesis c = true := by
  obtain ⟨blanks, body, rfl, blank, blankBody⟩ := empty
  intro c member
  simp only [List.mem_append, List.mem_cons, List.not_mem_nil, or_false] at member
  rcases member with inBlanks | rfl | inBody | rfl
  · exact Or.inl (blank c inBlanks)
  · exact Or.inr rfl
  · exact Or.inl (blankBody c inBody)
  · exact Or.inr rfl

theorem IsEmptyGroup.not_mem {group : List Char} (empty : IsEmptyGroup group) {c : Char}
    (noBlank : isBlank c = false) (noParenthesis : isParenthesis c = false)
    : c ∉ group := by
  intro member
  rcases empty.isBlank_or_isParenthesis c member with blank | parenthesis
  · rw [blank] at noBlank
    cases noBlank
  · rw [parenthesis] at noParenthesis
    cases noParenthesis

/-- A call of the constant is its name and an empty group. -/
theorem call?_pi_eq_some_iff
    : call? .pi text = some (body, back)
        ↔ ∃ name blanks, text = name ++ (blanks ++ '(' :: (body ++ [')']) ++ back)
          ∧ Function.pi.names name = true ∧ (∀ c ∈ blanks, isBlank c = true)
          ∧ ∀ c ∈ body, isBlank c = true := by
  rw [call?_eq_some_iff]
  constructor
  · rintro ⟨⟨name, blanks, rfl, named, blank⟩, _, accepted⟩
    exact ⟨name, blanks, by simp, named, blank, List.all_eq_true.mp accepted⟩
  · rintro ⟨name, blanks, rfl, named, blank, blankBody⟩
    exact ⟨⟨name, blanks, by simp, named, blank⟩,
      fun c member => isParenthesis_eq_false_of_isBlank (blankBody c member),
      List.all_eq_true.mpr blankBody⟩

theorem isSome_call?_commandWord
    : (call? .pi (Function.pi.commandWord ++ text)).isSome = true
        ↔ ∃ group, IsEmptyGroup group ∧ group <+: text := by
  rw [Option.isSome_iff_exists]
  constructor
  · rintro ⟨⟨body, back⟩, found⟩
    obtain ⟨name, blanks, same, named, blank, blankBody⟩ := call?_pi_eq_some_iff.mp found
    have two : name.length = 2 := (names_iff.mp named).length_eq.symm
    obtain ⟨_, rfl⟩ := List.append_inj same (by rw [two]; rfl)
    exact ⟨_, ⟨blanks, body, rfl, blank, blankBody⟩, List.prefix_append _ _⟩
  · rintro ⟨_, ⟨blanks, body, rfl, blank, blankBody⟩, back, rfl⟩
    exact ⟨(body, back), call?_pi_eq_some_iff.mpr
      ⟨Function.pi.commandWord, blanks, rfl, by decide, blank, blankBody⟩⟩

theorem runsOn_iff
    : runsOn text = true
        ↔ text.head?.any Char.isAlpha = true ∨ ∃ group, IsEmptyGroup group ∧ group <+: text := by
  rw [runsOn, Bool.or_eq_true, isSome_call?_commandWord]

/-- Text that is added after other text, with something else than a group, does not matter. -/
theorem runsOn_append (nonempty : front ≠ [])
    (apart : ∀ c ∈ back.head?, isBlank c = false ∧ isParenthesis c = false)
    : runsOn (front ++ back) = runsOn front := by
  rw [Bool.eq_iff_iff, runsOn_iff, runsOn_iff, List.head?_append_of_ne_nil _ nonempty]
  refine or_congr_right (exists_congr fun group => and_congr_right fun empty => ?_)
  cases back with
  | nil => rw [List.append_nil]
  | cons c rest =>
      obtain ⟨noBlank, noParenthesis⟩ := apart c rfl
      exact ⟨fun begins => prefix_of_not_mem begins (empty.not_mem noBlank noParenthesis),
        fun begins => begins.trans (List.prefix_append _ _)⟩

/-- Nor does text that is added after a text without parentheses, if it begins with a character that
ends a notation.
-/
theorem runsOn_append_of_plain (plain : ∀ c ∈ front, isParenthesis c = false) {stop : Char}
    (stops : stop.isAlpha = false ∧ stop ≠ '(' ∧ isBlank stop = false)
    : runsOn (front ++ stop :: back) = runsOn front := by
  rw [Bool.eq_iff_iff, runsOn_iff, runsOn_iff]
  refine or_congr ?_ ⟨?_, ?_⟩
  · cases front with
    | nil => simp [stops.1]
    | cons c rest => rfl
  · rintro ⟨_, ⟨blanks, body, rfl, blank, _⟩, begins⟩
    have outside : stop ∉ blanks ++ ['('] := by
      simp only [List.mem_append, List.mem_singleton, not_or]
      refine ⟨fun member => ?_, stops.2.1⟩
      rw [blank stop member] at stops
      cases stops.2.2
    have opens : blanks ++ ['('] <+: front := by
      refine prefix_of_not_mem (List.IsPrefix.trans ?_ begins) outside
      exact ⟨body ++ [')'], by simp⟩
    have clash := plain '(' (opens.subset (by simp))
    cases clash
  · rintro ⟨group, empty, begins⟩
    exact ⟨group, empty, begins.trans (List.prefix_append _ _)⟩

-----------------------------------------------------------------------------------------
-- What follows a backslash
-----------------------------------------------------------------------------------------

/-- The character that opens the argument of a command, for a command that has one. -/
def Function.opening? : Function → Option Char
  | .pi => none
  | .sum | .sqrt | .average => some '\x7b'
  | .sin | .cos | .tan | .log => some Function.keptOpening

/-- What opens an argument is of no call. -/
theorem exists_opening (argument : function ≠ .pi)
    : ∃ opening, function.opening? = some opening ∧ isWordCharacter opening = false
      ∧ isBlank opening = false ∧ isParenthesis opening = false := by
  cases function with
  | pi => exact absurd rfl argument
  | _ => exact ⟨_, rfl, by decide +kernel⟩

/-- What can follow a backslash in the course of typesetting: another one, or the command of a
function and what opens its argument.
-/
def Known (rest : List Char) : Prop :=
  rest.head? = some '\\'
    ∨ ∃ (function : Function) (more : List Char), rest = function.commandWord ++ more
      ∧ ∀ c ∈ function.opening?, more.head? = some c

/-- Whether what follows a backslash is no command, or runs into the command of the constant. -/
def broken : List Char → Bool
  | '\\' :: _ => true
  | 'p' :: 'i' :: rest => runsOn rest
  | _ => false

theorem broken_iff
    : broken rest = true
        ↔ rest.head? = some '\\'
          ∨ ∃ more, rest = Function.pi.commandWord ++ more ∧ runsOn more = true := by
  constructor
  · intro holds
    fun_cases broken rest with
    | case1 more => exact Or.inl rfl
    | case2 more => exact Or.inr ⟨more, rfl, holds⟩
    | case3 noBackslash noConstant => simp_all [broken]
  · rintro (first | ⟨more, rfl, holds⟩)
    · cases rest with
      | nil => cases first
      | cons c more =>
          obtain rfl := Option.some.inj first
          rfl
    · exact holds

theorem isWordCharacter_of_mem_commandWord (function : Function)
    : ∀ c ∈ function.commandWord, isWordCharacter c = true := by
  have all : ∀ function ∈ Function.all, function.commandWord.all isWordCharacter = true := by
    decide +kernel
  exact List.all_eq_true.mp (all function (mem_all function))

theorem endsInWord_of_words {word : List Char} (nonempty : word ≠ [])
    (words : ∀ c ∈ word, isWordCharacter c = true)
    : endsInWord word = true := by
  rw [endsInWord, List.getLast?_eq_getLast_of_ne_nil nonempty]
  exact words _ (List.getLast_mem nonempty)

/-- A word does not reach the end of a text that does not end in one. -/
theorem exists_append_of_apart {word more : List Char} (nonempty : front ≠ [])
    (apart : endsInWord front = false) (words : ∀ c ∈ word, isWordCharacter c = true)
    (same : front ++ back = word ++ more)
    : ∃ middle, middle ≠ [] ∧ front = word ++ middle ∧ more = middle ++ back := by
  have noWords : ¬ ∀ c ∈ front, isWordCharacter c = true := by
    intro all
    rw [endsInWord_of_words nonempty all] at apart
    cases apart
  rcases List.append_eq_append_iff.mp same with ⟨middle, rfl, _⟩ | ⟨middle, rfl, rfl⟩
  · exact absurd (fun c member => words c (List.mem_append_left _ member)) noWords
  · refine ⟨middle, ?_, rfl, rfl⟩
    rintro rfl
    exact noWords (by simpa using words)

theorem Known.of_apart (nonempty : front ≠ []) (apart : endsInWord front = false)
    (known : Known (front ++ back)) (after : List Char)
    : Known (front ++ after) := by
  rcases known with first | ⟨function, more, same, opened⟩
  · left
    rwa [List.head?_append_of_ne_nil _ nonempty] at first ⊢
  · obtain ⟨middle, filled, rfl, rfl⟩ := exists_append_of_apart nonempty apart
      (isWordCharacter_of_mem_commandWord function) same
    refine Or.inr ⟨function, middle ++ after, List.append_assoc .., fun c opens => ?_⟩
    have first := opened c opens
    rwa [List.head?_append_of_ne_nil _ filled] at first ⊢

theorem Known.of_plain (known : Known (front ++ ')' :: back)) (after : List Char)
    : Known (front ++ after) := by
  rcases known with first | ⟨function, more, same, opened⟩
  · cases front with
    | nil => cases first
    | cons c front => exact Or.inl first
  · rcases exists_of_append_eq_append_cons same.symm with ⟨middle, rfl, rfl⟩ | ⟨middle, word⟩
    · refine Or.inr ⟨function, middle ++ after, List.append_assoc .., fun c opens => ?_⟩
      have first := opened c opens
      cases middle with
      | nil =>
          obtain rfl := Option.some.inj first
          cases function <;> cases opens
      | cons d middle => exact first
    · have word := isWordCharacter_of_mem_commandWord function ')' (word ▸ by simp)
      exact absurd word (by decide +kernel)

theorem broken_append_of_apart (nonempty : front ≠ []) (apart : endsInWord front = false)
    (stops : ∀ c ∈ back.head?, isBlank c = false ∧ isParenthesis c = false)
    : broken (front ++ back) = broken front := by
  rw [Bool.eq_iff_iff, broken_iff, broken_iff, List.head?_append_of_ne_nil _ nonempty]
  refine or_congr_right ⟨?_, ?_⟩
  · rintro ⟨more, same, runs⟩
    obtain ⟨middle, filled, rfl, rfl⟩ := exists_append_of_apart nonempty apart
      (isWordCharacter_of_mem_commandWord .pi) same
    exact ⟨middle, rfl, (runsOn_append filled stops).symm.trans runs⟩
  · rintro ⟨more, rfl, runs⟩
    refine ⟨more ++ back, List.append_assoc .., (runsOn_append ?_ stops).trans runs⟩
    rintro rfl
    cases runs

theorem broken_append_of_plain (plain : ∀ c ∈ front, isParenthesis c = false) {stop : Char}
    (stops : stop ∈ [')', '\x7d', Function.keptClosing])
    : broken (front ++ stop :: back) = broken front := by
  obtain ⟨apart, noBackslash, outside⟩ :
      (stop.isAlpha = false ∧ stop ≠ '(' ∧ isBlank stop = false)
        ∧ stop ≠ '\\' ∧ stop ∉ Function.pi.commandWord := by
    simp only [List.mem_cons, List.not_mem_nil, or_false] at stops
    rcases stops with rfl | rfl | rfl <;> decide
  rw [Bool.eq_iff_iff, broken_iff, broken_iff]
  refine or_congr ?_ ⟨?_, ?_⟩
  · cases front with
    | nil => simp [noBackslash]
    | cons c front => rfl
  · rintro ⟨more, same, runs⟩
    rcases exists_of_append_eq_append_cons same.symm with ⟨middle, rfl, rfl⟩ | ⟨middle, word⟩
    · rw [runsOn_append_of_plain (fun c member => plain c (List.mem_append_right _ member)) apart]
        at runs
      exact ⟨middle, rfl, runs⟩
    · exact absurd (word ▸ by simp) outside
  · rintro ⟨more, rfl, runs⟩
    refine ⟨more ++ stop :: back, List.append_assoc .., ?_⟩
    rwa [runsOn_append_of_plain (fun c member => plain c (List.mem_append_right _ member)) apart]

/-- A call that begins right after a backslash breaks the command there. -/
theorem broken_of_call? (known : Known rest) (found : call? function rest = some (body, back))
    : broken rest = true := by
  rcases known with first | ⟨named, more, rfl, opened⟩
  · exact broken_iff.mpr (Or.inl first)
  · by_cases constant : named = .pi
    · subst constant
      have called : function = .pi := by
        cases function with
        | pi => rfl
        | _ => cases found
      subst called
      exact Bool.or_eq_true_iff.mpr (Or.inr (found ▸ rfl))
    · obtain ⟨⟨name, blanks, same, called, blank⟩, _⟩ := call?_eq_some_iff.mp found
      obtain ⟨opening, opens, noWord, noBlank, noParenthesis⟩ := exists_opening constant
      obtain ⟨tail, rfl⟩ : ∃ tail, more = opening :: tail := by
        have first := opened opening opens
        cases more with
        | nil => cases first
        | cons c tail => exact ⟨tail, by rw [Option.some.inj first]⟩
      rw [List.append_assoc] at same
      have stops : ∀ c ∈ (blanks ++ '(' :: (body ++ ')' :: back)).head?,
          isWordCharacter c = false := by
        cases blanks with
        | nil => simpa using isWordCharacter_eq_false_of_isParenthesis (c := '(') rfl
        | cons c blanks =>
            simpa using isWordCharacter_eq_false_of_isBlank (blank c List.mem_cons_self)
      obtain ⟨_, after⟩ := append_injective_of_stops (isWordCharacter_of_mem_commandWord named)
        (isWordCharacter_of_names called) (by simpa using noWord) stops same
      cases blanks with
      | nil =>
          obtain ⟨rfl, _⟩ := List.cons.inj after
          cases noParenthesis
      | cons c blanks =>
          obtain ⟨rfl, _⟩ := List.cons.inj after
          rw [blank _ List.mem_cons_self] at noBlank
          cases noBlank

/-- Whether no command of a text is broken. -/
def Unbroken (text : List Char) : Prop :=
  AfterBackslashes (fun rest => broken rest = false) text

theorem unbroken_append (front back : List Char)
    : Unbroken (front ++ back)
        ↔ AfterBackslashes (fun rest => broken (rest ++ back) = false) front ∧ Unbroken back :=
  afterBackslashes_append

-----------------------------------------------------------------------------------------
-- Steps
-----------------------------------------------------------------------------------------

theorem afterBackslashes_call {property : List Char → Prop}
    (found : call? function text = some (body, back))
    : AfterBackslashes property text
        ↔ AfterBackslashes (fun rest => property (rest ++ ')' :: back)) body
          ∧ AfterBackslashes property back := by
  obtain ⟨⟨name, blanks, rfl, named, blank⟩, _⟩ := call?_eq_some_iff.mp found
  have absent : '\\' ∉ name ++ blanks ++ ['('] := by
    simp only [List.mem_append, List.mem_singleton, not_or]
    exact ⟨⟨backslash_not_mem_of_names named, backslash_not_mem_of_isBlank blank⟩, by decide⟩
  rw [List.append_cons, afterBackslashes_append, and_iff_right (afterBackslashes_of_not_mem absent),
    afterBackslashes_append, afterBackslashes_cons]
  simp

/-- The notation of a function that has an argument. -/
theorem exists_toLatex_eq (argument : function ≠ .pi) (body : List Char)
    : ∃ opening closing, function.opening? = some opening ∧ opening ≠ '\\'
        ∧ closing ∈ ['\x7d', Function.keptClosing]
        ∧ function.toLatex body
          = '\\' :: (function.commandWord ++ opening :: (body ++ [closing])) := by
  cases function with
  | pi => exact absurd rfl argument
  | _ => exact ⟨_, _, rfl, by decide, by decide, rfl⟩

theorem afterBackslashes_toLatex (property : List Char → Prop) (argument : function ≠ .pi)
    (body back : List Char)
    : ∃ opening closing, function.opening? = some opening
        ∧ closing ∈ ['\x7d', Function.keptClosing]
        ∧ (AfterBackslashes property (function.toLatex body ++ back)
          ↔ property (function.commandWord ++ opening :: (body ++ closing :: back))
            ∧ AfterBackslashes (fun rest => property (rest ++ closing :: back)) body
            ∧ AfterBackslashes property back) := by
  obtain ⟨opening, closing, opens, noOpening, closes, same⟩ := exists_toLatex_eq argument body
  refine ⟨opening, closing, opens, closes, ?_⟩
  have noClosing : closing ≠ '\\' := by
    rintro rfl
    exact absurd closes (by decide)
  have whole : function.toLatex body ++ back
      = '\\' :: (function.commandWord ++ opening :: (body ++ closing :: back)) := by
    rw [same]
    simp
  have absent : '\\' ∉ function.commandWord := by
    intro member
    have word := isWordCharacter_of_mem_commandWord function _ member
    rw [isWordCharacter_backslash] at word
    cases word
  rw [whole, afterBackslashes_cons, afterBackslashes_append,
    and_iff_right (afterBackslashes_of_not_mem absent), afterBackslashes_cons,
    afterBackslashes_append, afterBackslashes_cons]
  simp [noOpening, noClosing]

theorem endsInWord_of_suffix {c : Char} (ends : c :: rest <:+ front)
    (apart : endsInWord front = false)
    : endsInWord rest = false := by
  obtain ⟨before, rfl⟩ := ends
  cases rest with
  | nil => rfl
  | cons d rest => rwa [List.append_cons, endsInWord_append (by simp)] at apart

/-- Every backslash is followed by what can follow one. -/
theorem TypesetsCall.known (step : TypesetsCall text next)
    (known : AfterBackslashes Known text)
    : AfterBackslashes Known next := by
  obtain @⟨function, front, body, back, _, call⟩ := step
  obtain ⟨apart, tail, rfl, found⟩ := hasCall_iff.mp call
  rw [afterBackslashes_append, afterBackslashes_call found] at known
  obtain ⟨inFront, inBody, inBack⟩ := known
  rw [afterBackslashes_append]
  constructor
  · intro rest ends
    by_cases nonempty : rest = []
    · subst nonempty
      obtain ⟨more, shown⟩ := toLatex_eq_cons function body
      exact Or.inl (by rw [shown]; rfl)
    · exact (inFront rest ends).of_apart nonempty (endsInWord_of_suffix ends apart) _
  by_cases constant : function = .pi
  · subst constant
    have inWord : AfterBackslashes Known (Function.pi.commandWord ++ back) :=
      afterBackslashes_append.mpr ⟨afterBackslashes_of_not_mem (by decide), inBack⟩
    refine afterBackslashes_cons.mpr ⟨fun _ => Or.inr ⟨.pi, back, rfl, fun c opens => ?_⟩, inWord⟩
    cases opens
  · obtain ⟨opening, closing, opens, _, parts⟩ :=
      afterBackslashes_toLatex Known constant body back
    rw [parts]
    refine ⟨Or.inr ⟨function, _, rfl, fun c same => ?_⟩, fun rest ends => ?_, inBack⟩
    · rw [opens] at same
      exact same
    · exact (inBody rest ends).of_plain _


theorem unbroken_toLatex_pi_iff (body back : List Char)
    : Unbroken (Function.pi.toLatex body ++ back) ↔ runsOn back = false ∧ Unbroken back := by
  have command : Unbroken (Function.pi.commandWord ++ back) ↔ Unbroken back := by
    rw [unbroken_append, and_iff_right (afterBackslashes_of_not_mem (by decide))]
  rw [← command]
  exact afterBackslashes_cons.trans (and_congr_left fun _ => by simp [broken])

theorem unbroken_toLatex_iff (found : call? function text = some (body, back))
    : Unbroken (function.toLatex body ++ back)
        ↔ Unbroken text ∧ (function = .pi → runsOn back = false) := by
  obtain ⟨_, plain, accepted⟩ := call?_eq_some_iff.mp found
  have parts : Unbroken text
      ↔ AfterBackslashes (fun rest => broken (rest ++ ')' :: back) = false) body
        ∧ Unbroken back := afterBackslashes_call found
  rw [parts]
  by_cases constant : function = .pi
  · subst constant
    have absent : '\\' ∉ body := backslash_not_mem_of_isBlank (List.all_eq_true.mp accepted)
    rw [unbroken_toLatex_pi_iff, and_iff_right (afterBackslashes_of_not_mem absent), and_comm]
    simp
  · obtain ⟨opening, closing, _, closes, shown⟩ :=
      afterBackslashes_toLatex (fun rest => broken rest = false) constant body back
    rw [Unbroken, shown, and_iff_left fun same => absurd same constant, and_iff_right]
    · refine and_congr_left fun _ => afterBackslashes_congr fun rest ends => ?_
      have plainRest : ∀ c ∈ rest, isParenthesis c = false :=
        fun c member => plain c (ends.subset (List.mem_cons_of_mem _ member))
      rw [broken_append_of_plain plainRest (List.mem_cons_of_mem _ closes),
        broken_append_of_plain plainRest (by decide)]
    · cases function with
      | pi => exact absurd rfl constant
      | _ => rfl

/-- A step breaks no command and mends none, but the command of the constant is broken when it is
written right before what runs into it.
-/
theorem HasCall.unbroken_iff (call : HasCall function front body back text)
    (known : AfterBackslashes Known text)
    : Unbroken (front ++ (function.toLatex body ++ back))
        ↔ Unbroken text ∧ (function = .pi → runsOn back = false) := by
  obtain ⟨apart, tail, rfl, found⟩ := hasCall_iff.mp call
  obtain ⟨more, shown⟩ := toLatex_eq_cons function body
  have opens : ∀ c ∈ tail.head?, isBlank c = false ∧ isParenthesis c = false := by
    intro c first
    obtain ⟨letter, more, rfl, word⟩ := exists_cons_of_call? found
    obtain rfl := Option.some.inj first
    exact ⟨isBlank_eq_false_of_isWordCharacter word, isParenthesis_eq_false_of_isWordCharacter word⟩
  have shows : ∀ c ∈ (function.toLatex body ++ back).head?,
      isBlank c = false ∧ isParenthesis c = false := by
    rw [shown]
    intro c first
    obtain rfl := Option.some.inj first
    decide
  rw [unbroken_append front, unbroken_append front tail, and_assoc]
  refine and_congr (afterBackslashes_congr fun rest ends => ?_) (unbroken_toLatex_iff found)
  by_cases nonempty : rest = []
  · subst nonempty
    have before : broken tail = true :=
      broken_of_call? ((afterBackslashes_append.mp known).1 [] ends) found
    rw [List.nil_append, List.nil_append, before, shown]
    rfl
  · have apartRest := endsInWord_of_suffix ends apart
    rw [broken_append_of_apart nonempty apartRest shows,
      broken_append_of_apart nonempty apartRest opens]

end FormulaLatex.Quick
