import Mathlib.Logic.Relation
import FormulaLatex.Proofs.Quick.Callee
import FormulaLatex.Proofs.Text.Division

/-! Typesetting one call at a time. A search for the calls of a function comes to the same as
writing its calls as notation one by one, the last one first, and so does searching again and
again until no call is left. What every such step keeps is kept by the whole.
-/

namespace FormulaLatex.Quick

open Text Relation

-----------------------------------------------------------------------------------------
-- Calls in a text
-----------------------------------------------------------------------------------------

/-- A text has a call of a function with a body, between what precedes it and what follows it:
the name of the function at the beginning of a word, and after white space the body in
parentheses, with no others in it.
-/
structure HasCall (function : Function) (front body back text : List Char) : Prop where
  apart : endsInWord front = false
  spelled : ∃ name blanks, text = front ++ (name ++ blanks ++ '(' :: (body ++ ')' :: back))
    ∧ function.names name = true ∧ ∀ c ∈ blanks, isBlank c = true
  plain : ∀ c ∈ body, isParenthesis c = false
  accepted : function.accepts body = true

variable {function : Function} {inWord : Bool} {front body back text next : List Char}

/-- A call is found by reading on from where it begins. -/
theorem hasCall_iff
    : HasCall function front body back text
        ↔ endsInWord front = false
          ∧ ∃ tail, text = front ++ tail ∧ call? function tail = some (body, back) := by
  constructor
  · rintro ⟨apart, ⟨name, blanks, same, named, blank⟩, plain, accepted⟩
    exact ⟨apart, _, same,
      call?_eq_some_iff.mpr ⟨⟨name, blanks, rfl, named, blank⟩, plain, accepted⟩⟩
  · rintro ⟨apart, tail, rfl, found⟩
    obtain ⟨⟨name, blanks, rfl, named, blank⟩, plain, accepted⟩ := call?_eq_some_iff.mp found
    exact ⟨apart, ⟨name, blanks, rfl, named, blank⟩, plain, accepted⟩

theorem call?_nil (function : Function) : call? function [] = none :=
  call?_of_stops (by simp)

theorem isWordCharacter_backslash : isWordCharacter '\\' = false := by
  decide +kernel

theorem backslash_not_mem_of_names {name : List Char} (named : function.names name = true)
    : '\\' ∉ name := by
  intro member
  have word := isWordCharacter_of_names named _ member
  rw [isWordCharacter_backslash] at word
  cases word

theorem backslash_not_mem_of_isBlank {blanks : List Char} (blank : ∀ c ∈ blanks, isBlank c = true)
    : '\\' ∉ blanks := by
  intro member
  have clash := blank _ member
  cases clash

/-- A call begins with a character of a word. -/
theorem exists_cons_of_call? (found : call? function text = some (body, back))
    : ∃ c rest, text = c :: rest ∧ isWordCharacter c = true := by
  obtain ⟨⟨name, blanks, rfl, named, _⟩, _⟩ := call?_eq_some_iff.mp found
  obtain ⟨letter, more, rfl⟩ := List.exists_cons_of_ne_nil (names_ne_nil named)
  exact ⟨letter, _, rfl, isWordCharacter_of_names named _ List.mem_cons_self⟩

theorem call?_eq_none {c : Char} (noWord : isWordCharacter c = false) (tail : List Char)
    : call? function (c :: tail) = none := by
  cases found : call? function (c :: tail) with
  | none => rfl
  | some parts =>
      obtain ⟨letter, more, same, word⟩ := exists_cons_of_call? found
      rw [(List.cons.inj same).1, word] at noWord
      cases noWord

/-- No call begins with a backslash. -/
theorem call?_backslash (function : Function) (tail : List Char)
    : call? function ('\\' :: tail) = none :=
  call?_eq_none isWordCharacter_backslash tail

@[simp]
theorem endsInWord_singleton (c : Char) : endsInWord [c] = isWordCharacter c :=
  rfl

theorem endsInWord_append {more : List Char} (nonempty : more ≠ [])
    : endsInWord (front ++ more) = endsInWord more := by
  rw [endsInWord, endsInWord, List.getLast?_append_of_ne_nil _ nonempty]

theorem hasCall_nil_iff
    : HasCall function [] body back text ↔ call? function text = some (body, back) := by
  simp [hasCall_iff]

theorem not_hasCall_nil : ¬ HasCall function front body back [] := by
  intro call
  obtain ⟨_, tail, same, found⟩ := hasCall_iff.mp call
  rw [(List.append_eq_nil_iff.mp same.symm).2, call?_nil] at found
  cases found

theorem hasCall_cons_iff {c d : Char}
    : HasCall function (d :: front) body back (c :: text)
        ↔ d = c ∧ HasCall function front body back text
          ∧ (front = [] → isWordCharacter c = false) := by
  have apart : endsInWord (d :: front) = false
      ↔ endsInWord front = false ∧ (front = [] → isWordCharacter d = false) := by
    cases front with
    | nil => simp
    | cons e front =>
        rw [← List.singleton_append, endsInWord_append (List.cons_ne_nil e front)]
        simp
  simp only [hasCall_iff, apart, List.cons_append, List.cons.injEq]
  constructor
  · rintro ⟨⟨ends, begins⟩, tail, ⟨rfl, rfl⟩, found⟩
    exact ⟨rfl, ⟨ends, tail, rfl, found⟩, begins⟩
  · rintro ⟨rfl, ⟨ends, tail, rfl, found⟩, begins⟩
    exact ⟨⟨ends, begins⟩, tail, ⟨rfl, rfl⟩, found⟩

/-- A search changes a text that has a call. -/
theorem HasCall.typesetFrom_ne_self (call : HasCall function front body back text)
    (begins : front = [] → inWord = false)
    : typesetFrom function inWord text ≠ text := by
  fun_induction typesetFrom function inWord text generalizing front with
  | case1 => exact absurd call not_hasCall_nil
  | case2 inWord c rest first after earlier _ =>
      obtain ⟨more, shown⟩ := toLatex_eq_cons function first
      rw [shown, List.cons_append]
      intro unchanged
      rw [← (List.cons.inj unchanged).1, call?_backslash] at earlier
      split at earlier <;> cases earlier
  | case3 inWord c rest noCall ih =>
      intro unchanged
      cases front with
      | nil =>
          rw [begins rfl, dif_neg Bool.false_ne_true, hasCall_nil_iff.mp call] at noCall
          cases noCall
      | cons d front =>
          obtain ⟨rfl, later, apart⟩ := hasCall_cons_iff.mp call
          exact ih later apart (List.cons.inj unchanged).2

/-- What a search gives begins like the text itself, up to the first notation. -/
theorem exists_append_of_typesetFrom {kept rest : List Char} (absent : '\\' ∉ kept)
    (begins : typesetFrom function inWord text = kept ++ rest)
    : ∃ others, text = kept ++ others := by
  fun_induction typesetFrom function inWord text generalizing kept with
  | case1 =>
      obtain ⟨rfl, rfl⟩ := List.append_eq_nil_iff.mp begins.symm
      exact ⟨[], rfl⟩
  | case2 inWord d tail first after earlier _ =>
      cases kept with
      | nil => exact ⟨d :: tail, rfl⟩
      | cons c kept =>
          obtain ⟨more, shown⟩ := toLatex_eq_cons function first
          rw [shown] at begins
          exact absurd ((List.cons.inj begins).1 ▸ List.mem_cons_self) absent
  | case3 inWord d tail noCall ih =>
      cases kept with
      | nil => exact ⟨d :: tail, rfl⟩
      | cons c kept =>
          obtain ⟨rfl, later⟩ := List.cons.inj begins
          obtain ⟨others, rfl⟩ := ih (fun member => absent (List.mem_cons_of_mem _ member)) later
          exact ⟨others, rfl⟩

-----------------------------------------------------------------------------------------
-- Steps
-----------------------------------------------------------------------------------------

/-- One call of a text is typeset. -/
inductive TypesetsCall : List Char → List Char → Prop
  | typeset {function : Function} {front body back text : List Char}
    (call : HasCall function front body back text)
    : TypesetsCall text (front ++ (function.toLatex body ++ back))

/-- What every step keeps, any number of steps keeps. -/
theorem TypesetsCall.kept {motive : List Char → Prop}
    (keeps : ∀ {text next}, TypesetsCall text next → motive text → motive next)
    (reaches : ReflTransGen TypesetsCall text next) (start : motive text)
    : motive next := by
  induction reaches with
  | refl => exact start
  | tail _ step ih => exact keeps step ih

/-- A search typesets calls one by one, from the last one to the first one. -/
theorem reaches_typesetFrom (function : Function) (inWord : Bool) (before text : List Char)
    (apart : inWord = false → endsInWord before = false)
    : ReflTransGen TypesetsCall (before ++ text)
        (before ++ typesetFrom function inWord text) := by
  fun_induction typesetFrom function inWord text generalizing before with
  | case1 => exact .refl
  | case2 inWord c tail body rest found ih =>
      split at found
      case isTrue => cases found
      rename_i noWord
      obtain ⟨⟨name, blanks, shape, named, blank⟩, plain, accepted⟩ := call?_eq_some_iff.mp found
      -- What follows the call is searched first, with the call in front of it.
      have later := ih (before ++ (name ++ blanks ++ '(' :: (body ++ [')']))) fun _ => by
        rw [endsInWord_append (by simp), endsInWord_append (by simp), ← List.cons_append,
          endsInWord_append (by simp)]
        decide +kernel
      have call : HasCall function before body (typesetFrom function false rest)
          (before ++ (name ++ blanks ++ '(' :: (body ++ [')']))
            ++ typesetFrom function false rest) :=
        ⟨apart (Bool.not_eq_true _ ▸ noWord), ⟨name, blanks, by simp, named, blank⟩, plain,
          accepted⟩
      rw [shape]
      refine .tail ?_ (.typeset call)
      simpa using later
  | case3 inWord c tail noCall ih =>
      have later := ih (before ++ [c]) fun noWord => by
        rw [endsInWord_append (by simp)]
        exact noWord
      simpa using later

theorem reaches_typeset (function : Function) (text : List Char)
    : ReflTransGen TypesetsCall text (typeset function text) :=
  reaches_typesetFrom function false [] text fun _ => rfl

theorem reaches_foldl_typeset (functions : List Function) (text : List Char)
    : ReflTransGen TypesetsCall text
        (functions.foldl (fun text function => typeset function text) text) := by
  induction functions generalizing text with
  | nil => exact .refl
  | cons function functions ih => exact (reaches_typeset function text).trans (ih _)

/-- A text settles by typesetting calls one by one. -/
theorem reaches_settle (text : List Char) : ReflTransGen TypesetsCall text (settle text) := by
  fun_induction settle text with
  | case1 text unchanged => exact .refl
  | case2 text changed ih => exact (reaches_foldl_typeset Function.all text).trans ih

/-- A text without calls has settled. -/
theorem settle_eq_self
    (noCall : ∀ function front body back, ¬ HasCall function front body back text)
    : settle text = text := by
  rcases ReflTransGen.cases_head (reaches_settle text) with same | ⟨next, ⟨call⟩, _⟩
  · exact same.symm
  · exact absurd call (noCall _ _ _ _)

/-- Where a pass changes nothing, no function has a call. -/
theorem typeset_eq_self {functions : List Function} {text : List Char}
    (unchanged : functions.foldl (fun text function => typeset function text) text = text)
    : ∀ function ∈ functions, typeset function text = text := by
  induction functions with
  | nil => simp
  | cons function functions ih =>
      rw [List.foldl_cons] at unchanged
      have first : typeset function text = text := by
        rcases typesetFrom_eq_or_count_lt function false text with same | fewer
        · exact same
        · have later := foldl_typeset_eq_or_count_lt functions (typeset function text)
          rw [unchanged] at later
          rcases later with same | more
          · exact same.symm
          · exact absurd (Nat.lt_trans fewer more) (Nat.lt_irrefl _)
      rw [first] at unchanged
      exact List.forall_mem_cons.mpr ⟨first, ih unchanged⟩

theorem pass_settle (text : List Char) : pass (settle text) = settle text := by
  fun_induction settle text with
  | case1 text unchanged => exact unchanged
  | case2 text changed ih => exact ih

/-- Where searches change nothing, there is no call. -/
theorem not_hasCall_of_typeset (unchanged : ∀ function ∈ Function.all, typeset function text = text)
    : ¬ HasCall function front body back text := fun call =>
  call.typesetFrom_ne_self (fun _ => rfl) (unchanged function (mem_all function))

/-- Once a text has settled, no call is left. -/
theorem not_hasCall_settle : ¬ HasCall function front body back (settle text) :=
  not_hasCall_of_typeset (typeset_eq_self (pass_settle text))

end FormulaLatex.Quick
