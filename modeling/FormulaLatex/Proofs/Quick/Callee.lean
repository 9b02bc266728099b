import Mathlib.Data.List.DropRight
import Mathlib.Data.List.Forall2
import FormulaLatex.Proofs.Quick.Layout
import FormulaLatex.Proofs.Text.Classes
import FormulaLatex.Quick.Typeset

/-! What a group is called by. The name of a function stands right before a group, white space
aside, and is the whole last word there. Searching a text for calls of a function finds the
groups without groups in them that the function calls, and leaves all other text alone.
-/

namespace FormulaLatex.Quick

open Text

-----------------------------------------------------------------------------------------
-- Names
-----------------------------------------------------------------------------------------

/-- Whether a word is the name of a function, in any case. -/
def Function.names (function : Function) (word : List Char) : Bool :=
  afterName? function.name word == some []

/-- The word characters at the end of a text. -/
def lastWord (text : List Char) : List Char :=
  text.rtakeWhile isWordCharacter

/-- Whether a text ends inside a word or right after one. -/
def endsInWord (text : List Char) : Bool :=
  text.getLast?.any isWordCharacter

@[simp]
theorem endsInWord_nil : endsInWord [] = false :=
  rfl

/-- The function that a group is called by, given what stands before the group. -/
def callee? (heading : List Char) : Option Function :=
  Function.all.find? fun function => function.names (lastWord (trimEnd heading))

/-- What stands before the name of a function at the end of a text. -/
def beforeName (heading : List Char) : List Char :=
  (trimEnd heading).rdropWhile isWordCharacter

theorem afterName?_eq_some_iff {name text rest : List Char}
    : afterName? name text = some rest
        ↔ ∃ spelled, text = spelled ++ rest
          ∧ List.Forall₂ (fun letter c => isLetter letter c = true) name spelled := by
  induction name generalizing text with
  | nil => simp [afterName?]
  | cons letter name ih =>
      cases text with
      | nil => simp [afterName?]
      | cons c text =>
          rw [afterName?]
          constructor
          · intro named
            split at named
            · rename_i first
              obtain ⟨spelled, rfl, spells⟩ := ih.mp named
              exact ⟨c :: spelled, rfl, .cons first spells⟩
            · cases named
          · rintro ⟨_, same, _ | ⟨first, spells⟩⟩
            obtain ⟨rfl, rfl⟩ := List.cons.inj same
            rw [if_pos first]
            exact ih.mpr ⟨_, rfl, spells⟩

theorem names_iff {function : Function} {word : List Char}
    : function.names word = true
        ↔ List.Forall₂ (fun letter c => isLetter letter c = true) function.name word := by
  simp [Function.names, afterName?_eq_some_iff]

/-- The letters of all names. -/
def letters : List Char :=
  Function.all.flatMap Function.name

theorem mem_all (function : Function) : function ∈ Function.all := by
  cases function <;> decide

theorem mem_letters {function : Function} {letter : Char} (member : letter ∈ function.name)
    : letter ∈ letters :=
  List.mem_flatMap.mpr ⟨function, mem_all function, member⟩

/-- The characters that a letter of a name is spelled with. -/
theorem mem_of_isLetter {letter c : Char} (spells : isLetter letter c = true)
    : c ∈ [letter, letter.toLower, 'ſ'] := by
  simp only [isLetter, Bool.or_eq_true, Bool.and_eq_true, beq_iff_eq] at spells
  rcases spells with (rfl | rfl) | ⟨_, rfl⟩ <;> simp

theorem isWordCharacter_of_isLetter {letter c : Char} (member : letter ∈ letters)
    (spells : isLetter letter c = true)
    : isWordCharacter c = true := by
  have all : letters.all (fun letter => [letter, letter.toLower, 'ſ'].all isWordCharacter)
      = true := by
    decide +kernel
  exact List.all_eq_true.mp (List.all_eq_true.mp all letter member) c (mem_of_isLetter spells)

theorem isLetter_injective {letter other c : Char} (member : letter ∈ letters)
    (otherMember : other ∈ letters) (spells : isLetter letter c = true)
    (otherSpells : isLetter other c = true)
    : letter = other := by
  have all : letters.all (fun letter => letters.all fun other =>
      [letter, letter.toLower, 'ſ'].all fun c =>
        isLetter letter c && isLetter other c → letter = other) = true := by
    decide +kernel
  have here := List.all_eq_true.mp (List.all_eq_true.mp (List.all_eq_true.mp all letter member)
    other otherMember) c (mem_of_isLetter spells)
  exact of_decide_eq_true here (by rw [spells, otherSpells]; rfl)

theorem isWordCharacter_of_names {function : Function} {word : List Char}
    (named : function.names word = true)
    : ∀ c ∈ word, isWordCharacter c = true := by
  intro c member
  have spelled : ∀ {name : List Char}, (∀ letter ∈ name, letter ∈ letters) →
      ∀ {word}, List.Forall₂ (fun letter c => isLetter letter c = true) name word →
      ∀ c ∈ word, isWordCharacter c = true := by
    intro name known word spells
    induction spells with
    | nil => simp
    | cons first _ ih =>
        rw [List.forall_mem_cons] at known ⊢
        exact ⟨isWordCharacter_of_isLetter known.1 first, ih known.2⟩
  exact spelled (fun _ => mem_letters) (names_iff.mp named) c member

/-- The notation of a call begins with a backslash. -/
theorem toLatex_eq_cons (function : Function) (body : List Char)
    : ∃ more, function.toLatex body = '\\' :: more := by
  cases function <;> exact ⟨_, rfl⟩

theorem names_ne_nil {function : Function} {word : List Char}
    (named : function.names word = true)
    : word ≠ [] := by
  rintro rfl
  cases function <;> cases named

/-- A word is the name of at most one function. -/
theorem names_injective {function other : Function} {word : List Char}
    (named : function.names word = true) (otherNamed : other.names word = true)
    : function = other := by
  have spelled : ∀ {name otherName : List Char}, (∀ letter ∈ name, letter ∈ letters) →
      (∀ letter ∈ otherName, letter ∈ letters) →
      ∀ {word}, List.Forall₂ (fun letter c => isLetter letter c = true) name word →
      List.Forall₂ (fun letter c => isLetter letter c = true) otherName word →
      name = otherName := by
    intro name otherName known otherKnown word spells otherSpells
    induction spells generalizing otherName with
    | nil =>
        cases otherSpells
        rfl
    | cons first _ ih =>
        cases otherSpells with
        | cons otherFirst otherSpells =>
            rw [List.forall_mem_cons] at known otherKnown
            rw [isLetter_injective known.1 otherKnown.1 first otherFirst,
              ih known.2 otherKnown.2 otherSpells]
  have same : function.name = other.name :=
    spelled (fun _ => mem_letters) (fun _ => mem_letters) (names_iff.mp named)
      (names_iff.mp otherNamed)
  have all : ∀ function ∈ Function.all, ∀ other ∈ Function.all,
      function.name = other.name → function = other := by
    decide
  exact all function (mem_all function) other (mem_all other) same

theorem isBlank_eq_false_of_isWordCharacter {c : Char} (word : isWordCharacter c = true)
    : isBlank c = false := by
  rw [Bool.eq_false_iff]
  intro blank
  have noMark : memRanges wordMarkRanges c.toNat = false := by
    refine memRanges_eq_false_of_apart ?_ blank
    simp only [← List.all_eq_true]
    decide +kernel
  rw [isWordCharacter, isAlphabetic_eq_false_of_isBlank blank, noMark] at word
  cases word

theorem isParenthesis_eq_false_of_isWordCharacter {c : Char} (word : isWordCharacter c = true)
    : isParenthesis c = false := by
  rw [Bool.eq_false_iff]
  intro parenthesis
  simp only [isParenthesis, Bool.or_eq_true, beq_iff_eq] at parenthesis
  have noWord : isWordCharacter '(' = false ∧ isWordCharacter ')' = false := by
    decide +kernel
  rcases parenthesis with rfl | rfl
  · exact absurd word (by simp [noWord])
  · exact absurd word (by simp [noWord])

theorem isWordCharacter_eq_false_of_isBlank {c : Char} (blank : isBlank c = true)
    : isWordCharacter c = false := by
  rw [Bool.eq_false_iff]
  intro word
  rw [isBlank_eq_false_of_isWordCharacter word] at blank
  cases blank

theorem isWordCharacter_eq_false_of_isParenthesis {c : Char}
    (parenthesis : isParenthesis c = true)
    : isWordCharacter c = false := by
  rw [Bool.eq_false_iff]
  intro word
  rw [isParenthesis_eq_false_of_isWordCharacter word] at parenthesis
  cases parenthesis

theorem isParenthesis_eq_false_of_isBlank {c : Char} (blank : isBlank c = true)
    : isParenthesis c = false := by
  rw [Bool.eq_false_iff]
  intro parenthesis
  simp only [isParenthesis, Bool.or_eq_true, beq_iff_eq] at parenthesis
  rcases parenthesis with rfl | rfl <;> cases blank

-----------------------------------------------------------------------------------------
-- Callees
-----------------------------------------------------------------------------------------

/-- A function is named at the end of a heading, white space aside, after a given front that
does not run into the name.
-/
structure CallsAfter (function : Function) (front : List Char) (heading : List Char) : Prop where
  spelled : ∃ name blanks, heading = front ++ (name ++ blanks)
    ∧ function.names name = true ∧ ∀ c ∈ blanks, isBlank c = true
  apart : endsInWord front = false

theorem rdropWhile_append {p : Char → Bool} {front run : List Char}
    (ends : front.getLast?.any p = false) (inRun : ∀ c ∈ run, p c = true)
    : (front ++ run).rdropWhile p = front ∧ (front ++ run).rtakeWhile p = run := by
  have dropped : (front ++ run).rdropWhile p = front := by
    have kept : front.rdropWhile p = front := by
      rw [List.rdropWhile_eq_self_iff]
      intro nonempty
      rw [List.getLast?_eq_getLast_of_ne_nil nonempty, Option.any_some] at ends
      simp [ends]
    rw [List.rdropWhile, List.reverse_append, List.dropWhile_append_of_pos (by simpa using inRun)]
    exact kept
  refine ⟨dropped, ?_⟩
  have whole := List.rdropWhile_append_rtakeWhile (p := p) (l := front ++ run)
  rw [dropped] at whole
  exact List.append_cancel_left whole

theorem endsInWord_beforeName (heading : List Char)
    : endsInWord (beforeName heading) = false := by
  rw [endsInWord, beforeName]
  cases last : ((trimEnd heading).rdropWhile isWordCharacter).getLast? with
  | none => rfl
  | some c =>
      obtain ⟨nonempty, rfl⟩ := List.mem_getLast?_eq_getLast last
      simpa using List.rdropWhile_last_not isWordCharacter _ nonempty

theorem callsAfter_iff {function : Function} {front heading : List Char}
    : CallsAfter function front heading
        ↔ callee? heading = some function ∧ front = beforeName heading := by
  constructor
  · rintro ⟨⟨name, blanks, same, named, blank⟩, apart⟩
    have wordEnds : (front ++ name).getLast?.any isBlank = false := by
      rw [List.getLast?_append_of_ne_nil _ (names_ne_nil named),
        List.getLast?_eq_getLast_of_ne_nil (names_ne_nil named), Option.any_some]
      exact isBlank_eq_false_of_isWordCharacter
        (isWordCharacter_of_names named _ (List.getLast_mem _))
    have trimmed : trimEnd heading = front ++ name := by
      rw [same, ← List.append_assoc]
      exact (rdropWhile_append wordEnds blank).1
    obtain ⟨before, word⟩ := rdropWhile_append apart (isWordCharacter_of_names named)
    constructor
    · rw [callee?, trimmed, lastWord, word]
      cases found : Function.all.find? fun function => function.names name with
      | none => exact absurd named (List.find?_eq_none.mp found function (mem_all function))
      | some other =>
          have otherNamed : other.names name = true := by simpa using List.find?_some found
          rw [names_injective named otherNamed]
    · rw [beforeName, trimmed, before]
  · rintro ⟨called, rfl⟩
    have named : function.names (lastWord (trimEnd heading)) = true := by
      simpa using List.find?_some called
    refine ⟨⟨_, heading.rtakeWhile isBlank, ?_, named, fun c => List.mem_rtakeWhile_imp⟩,
      endsInWord_beforeName heading⟩
    rw [← List.append_assoc, beforeName, lastWord, List.rdropWhile_append_rtakeWhile]
    exact List.rdropWhile_append_rtakeWhile.symm

-----------------------------------------------------------------------------------------
-- Calls
-----------------------------------------------------------------------------------------

/-- A call is a name, a body in parentheses, and white space between them. -/
theorem call?_eq_some_iff {function : Function} {text body rest : List Char}
    : call? function text = some (body, rest)
        ↔ (∃ name blanks, text = name ++ blanks ++ '(' :: (body ++ ')' :: rest)
            ∧ function.names name = true ∧ ∀ c ∈ blanks, isBlank c = true)
          ∧ (∀ c ∈ body, isParenthesis c = false) ∧ function.accepts body = true := by
  constructor
  · intro found
    unfold call? at found
    split at found
    case h_2 => cases found
    rename_i inside opened
    obtain ⟨after, named, trimmed⟩ := Option.map_eq_some_iff.mp opened
    obtain ⟨name, rfl, spells⟩ := afterName?_eq_some_iff.mp named
    dsimp only at found
    split at found
    case h_2 => cases found
    rename_i closed
    split at found
    case isFalse => cases found
    rename_i accepted
    obtain ⟨rfl, rfl⟩ := Prod.mk.inj (Option.some.inj found)
    refine ⟨⟨name, after.takeWhile isBlank, ?_, names_iff.mpr spells, fun c => ?_⟩, ?_, accepted⟩
    · rw [← closed, List.takeWhile_append_dropWhile, ← trimmed, trimStart, List.append_assoc,
        List.takeWhile_append_dropWhile]
    · exact List.mem_takeWhile_imp
    · intro c member
      simpa using List.mem_takeWhile_imp member
  · rintro ⟨⟨name, blanks, rfl, named, blank⟩, plain, accepted⟩
    have after : afterName? function.name (name ++ blanks ++ '(' :: (body ++ ')' :: rest))
        = some (blanks ++ '(' :: (body ++ ')' :: rest)) :=
      afterName?_eq_some_iff.mpr ⟨name, List.append_assoc .., names_iff.mp named⟩
    have trimmed : trimStart (blanks ++ '(' :: (body ++ ')' :: rest))
        = '(' :: (body ++ ')' :: rest) := by
      rw [trimStart, List.dropWhile_append_of_pos blank, List.dropWhile_cons_of_neg (by decide)]
    have inBody : ∀ c ∈ body, (!isParenthesis c) = true := by
      simpa using plain
    have taken : (body ++ ')' :: rest).takeWhile (fun c => !isParenthesis c) = body := by
      rw [List.takeWhile_append_of_pos inBody, List.takeWhile_cons_of_neg (by decide),
        List.append_nil]
    have dropped : (body ++ ')' :: rest).dropWhile (fun c => !isParenthesis c)
        = ')' :: rest := by
      rw [List.dropWhile_append_of_pos inBody, List.dropWhile_cons_of_neg (by decide)]
    simp only [call?, after, Option.map_some, trimmed, taken, dropped, accepted, if_true]

/-- A call begins with a name, and so with no parenthesis. -/
theorem call?_of_stops {function : Function} {rest : List Char}
    (stops : ∀ c ∈ rest.head?, isParenthesis c = true)
    : call? function rest = none := by
  cases found : call? function rest with
  | none => rfl
  | some parts =>
      obtain ⟨⟨name, blanks, rfl, named, _⟩, _⟩ := call?_eq_some_iff.mp found
      obtain ⟨first, more, rfl⟩ := List.exists_cons_of_ne_nil (names_ne_nil named)
      have word := isWordCharacter_of_names named first List.mem_cons_self
      have parenthesis := stops first rfl
      rw [isParenthesis_eq_false_of_isWordCharacter word] at parenthesis
      cases parenthesis

/-- Where a call is found that begins in a stretch, the stretch is all that precedes the
parentheses of the call.
-/
theorem callsAfter_of_call? {function : Function} {heading : Stretch}
    {before after rest body more : List Char} (parts : heading.chars = before ++ after)
    (apart : endsInWord before = false)
    (stops : ∀ c ∈ rest.head?, isParenthesis c = true)
    (found : call? function (after ++ rest) = some (body, more))
    : CallsAfter function before heading.chars ∧ rest = '(' :: (body ++ ')' :: more) := by
  obtain ⟨⟨name, blanks, same, named, blank⟩, _⟩ := call?_eq_some_iff.mp found
  have plainAfter : ∀ c ∈ after, isParenthesis c = false := by
    intro c member
    exact heading.plain c (by simp [parts, member])
  have plainCall : ∀ c ∈ name ++ blanks, isParenthesis c = false := by
    intro c member
    rcases List.mem_append.mp member with inName | inBlanks
    · exact isParenthesis_eq_false_of_isWordCharacter (isWordCharacter_of_names named c inName)
    · exact isParenthesis_eq_false_of_isBlank (blank c inBlanks)
  have opens : ∀ c ∈ ('(' :: (body ++ ')' :: more)).head?, isParenthesis c = true := by
    simp [isParenthesis]
  obtain ⟨spelled, rests⟩ := plain_append_injective plainAfter plainCall stops opens same
  exact ⟨⟨⟨name, blanks, by rw [parts, spelled], named, blank⟩, apart⟩, rests⟩

-----------------------------------------------------------------------------------------
-- Searching
-----------------------------------------------------------------------------------------

theorem typesetFrom_nil (function : Function) (inWord : Bool)
    : typesetFrom function inWord [] = [] := by
  rw [typesetFrom]

theorem typesetFrom_call {function : Function} {text body rest : List Char}
    (found : call? function text = some (body, rest))
    : typesetFrom function false text
        = function.toLatex body ++ typesetFrom function false rest := by
  cases text with
  | nil =>
      rw [call?_of_stops (by simp)] at found
      cases found
  | cons c tail =>
      rw [typesetFrom.eq_def]
      dsimp only
      split
      · rename_i other more otherFound
        rw [if_neg Bool.false_ne_true, found] at otherFound
        obtain ⟨rfl, rfl⟩ := Prod.mk.inj (Option.some.inj otherFound)
        rfl
      · rename_i noCall
        rw [if_neg Bool.false_ne_true, found] at noCall
        cases noCall

theorem typesetFrom_cons {function : Function} {inWord : Bool} {c : Char} {tail : List Char}
    (noCall : inWord = false → call? function (c :: tail) = none)
    : typesetFrom function inWord (c :: tail)
        = c :: typesetFrom function (isWordCharacter c) tail := by
  rw [typesetFrom.eq_def]
  dsimp only
  split
  · rename_i body rest found
    split at found
    · cases found
    · rename_i apart
      rw [noCall (Bool.not_eq_true _ ▸ apart)] at found
      cases found
  · rfl

/-- It does not matter whether a parenthesis is preceded by a word. -/
theorem typesetFrom_of_stops {function : Function} {rest : List Char}
    (stops : ∀ c ∈ rest.head?, isParenthesis c = true) (inWord : Bool)
    : typesetFrom function inWord rest = typesetFrom function false rest := by
  cases rest with
  | nil => rw [typesetFrom_nil, typesetFrom_nil]
  | cons c tail =>
      rw [typesetFrom_cons fun _ => call?_of_stops stops,
        typesetFrom_cons fun _ => call?_of_stops stops]

theorem typesetFrom_parenthesis (function : Function) {c : Char}
    (parenthesis : isParenthesis c = true) (rest : List Char)
    : typesetFrom function false (c :: rest) = c :: typesetFrom function false rest := by
  rw [typesetFrom_cons fun _ => call?_of_stops (by simp [parenthesis]),
    isWordCharacter_eq_false_of_isParenthesis parenthesis]

/-- A text in which no call begins is left alone. -/
theorem typesetFrom_append (function : Function) (before after rest : List Char)
    (noCall : ∀ middle last, after = middle ++ last → last ≠ [] →
      endsInWord (before ++ middle) = false → call? function (last ++ rest) = none)
    : typesetFrom function (endsInWord before) (after ++ rest)
        = after ++ typesetFrom function (endsInWord (before ++ after)) rest := by
  induction after generalizing before with
  | nil => simp
  | cons c tail ih =>
      have first : endsInWord before = false → call? function (c :: (tail ++ rest)) = none := by
        intro apart
        exact noCall [] (c :: tail) rfl (by simp) (by simpa using apart)
      have last : endsInWord (before ++ [c]) = isWordCharacter c := by
        simp [endsInWord]
      rw [List.cons_append, typesetFrom_cons first, ← last, ih (before ++ [c])]
      · simp
      · intro middle last same nonempty apart
        exact noCall (c :: middle) last (by rw [same, List.cons_append]) nonempty
          (by simpa using apart)

variable {function : Function} {heading : Stretch} {rest : List Char}

/-- A stretch is left alone unless a call has its name in it. -/
theorem typesetFrom_stretch (stops : ∀ c ∈ rest.head?, isParenthesis c = true)
    (noCall : ∀ front body more, CallsAfter function front heading.chars →
      rest = '(' :: (body ++ ')' :: more) → (∀ c ∈ body, isParenthesis c = false) →
      function.accepts body = false)
    : typesetFrom function false (heading.chars ++ rest)
        = heading.chars ++ typesetFrom function false rest := by
  have kept := typesetFrom_append function [] heading.chars rest ?_
  · rwa [endsInWord_nil, typesetFrom_of_stops stops] at kept
  · intro middle last same nonempty apart
    cases found : call? function (last ++ rest) with
    | none => rfl
    | some parts =>
        obtain ⟨body, more⟩ := parts
        obtain ⟨calls, opens⟩ := callsAfter_of_call? same apart stops found
        obtain ⟨_, plain, accepted⟩ := call?_eq_some_iff.mp found
        rw [noCall middle body more calls opens plain] at accepted
        cases accepted

/-- The call of a group without groups in it is typeset. -/
theorem typesetFrom_group {front body : List Char}
    (calls : CallsAfter function front heading.chars)
    (plain : ∀ c ∈ body, isParenthesis c = false) (accepted : function.accepts body = true)
    : typesetFrom function false (heading.chars ++ '(' :: (body ++ ')' :: rest))
        = front ++ function.toLatex body ++ typesetFrom function false rest := by
  have stops : ∀ c ∈ ('(' :: (body ++ ')' :: rest)).head?, isParenthesis c = true := by
    simp [isParenthesis]
  obtain ⟨name, blanks, same, named, blank⟩ := calls.spelled
  have found : call? function (name ++ blanks ++ '(' :: (body ++ ')' :: rest))
      = some (body, rest) :=
    call?_eq_some_iff.mpr ⟨⟨name, blanks, rfl, named, blank⟩, plain, accepted⟩
  have before := typesetFrom_append function [] front
    (name ++ blanks ++ '(' :: (body ++ ')' :: rest)) ?_
  · rw [List.nil_append, calls.apart, typesetFrom_call found] at before
    rw [same]
    simpa only [List.append_assoc, endsInWord_nil] using before
  · -- A call that begins further to the front would have another front.
    intro middle last parts nonempty apart
    cases earlier : call? function (last ++ (name ++ blanks ++ '(' :: (body ++ ')' :: rest))) with
    | none => rfl
    | some others =>
        obtain ⟨otherBody, more⟩ := others
        have whole : heading.chars = middle ++ (last ++ (name ++ blanks)) := by
          rw [same, parts, List.append_assoc]
        have other := callsAfter_of_call? whole apart stops (by simpa using earlier)
        have fronts : middle = front :=
          (callsAfter_iff.mp other.1).2.trans (callsAfter_iff.mp calls).2.symm
        rw [fronts] at parts
        exact absurd (List.self_eq_append_right.mp parts) nonempty

end FormulaLatex.Quick
