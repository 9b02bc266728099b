import Mathlib.Data.List.Infix
import FormulaLatex.Proofs.Quick.Rewriting
import FormulaLatex.Proofs.Quick.SingleCalls
import FormulaLatex.Quick.Convert

/-! Quick conversion, call by call. Searching a text for calls again and again, one function at a
time, comes to the same as writing every convertible group once, around what is written for its
body. After that, operators are replaced in one scan, and white space is tidied.
-/

namespace FormulaLatex.Quick

open Text

-----------------------------------------------------------------------------------------
-- Settling
-----------------------------------------------------------------------------------------

namespace Layout

/-- Steps function by function keep what is written in the end. -/
theorem exists_foldl_typeset {layout : Layout} (apart : layout.Apart) (functions : List Function)
    : ∃ rewritten : Layout,
        rewritten.text
            = functions.foldl (fun text function => typeset function text) layout.text
          ∧ rewritten.Apart
          ∧ rewritten.typesetWith Function.toLatex = layout.typesetWith Function.toLatex := by
  induction functions generalizing layout with
  | nil => exact ⟨layout, rfl, apart, rfl⟩
  | cons function functions ih =>
      obtain ⟨rewritten, shape, rewrittenApart, written⟩ := ih (apart.step function)
      refine ⟨rewritten, ?_, rewrittenApart, written.trans (typesetWith_step apart function)⟩
      rw [shape, List.foldl_cons, typeset_text]

/-- A text settles as what is written for its layout. -/
theorem settle_text {layout : Layout} (apart : layout.Apart)
    : settle layout.text = layout.typesetWith Function.toLatex := by
  generalize shape : layout.text = text
  fun_induction settle text generalizing layout with
  | case1 text unchanged =>
      have kept : ∀ function, step function layout = layout := by
        intro function
        apply text_injective
        rw [← typeset_text, shape]
        exact typeset_eq_self unchanged function (mem_all function)
      rw [typesetWith_eq_text kept, shape]
  | case2 text changed ih =>
      obtain ⟨rewritten, rewrittenShape, rewrittenApart, written⟩ :=
        exists_foldl_typeset apart Function.all
      rw [← written]
      exact ih rewrittenApart (by rw [rewrittenShape, shape, pass])

end Layout

-----------------------------------------------------------------------------------------
-- Closing parentheses
-----------------------------------------------------------------------------------------

/-- Whether no closing parenthesis of a text is followed by a word character, or by an opening
parenthesis, be there white space between the two or not.
-/
def ClosingsApart (text : List Char) : Prop :=
  ∀ rest, ')' :: rest <:+ text →
    rest.head?.any isWordCharacter = false ∧ (trimStart rest).head? ≠ some '('

instance : DecidablePred ClosingsApart := fun text =>
  decidable_of_iff
    (∀ tail ∈ text.tails, tail.head? = some ')' →
      tail.tail.head?.any isWordCharacter = false ∧ (trimStart tail.tail).head? ≠ some '(')
    ⟨fun all rest isSuffix => all (')' :: rest) ((List.mem_tails _ _).mpr isSuffix) rfl,
      fun apart tail member first => apart tail.tail <| by
        rwa [← List.eq_cons_of_mem_head? first, ← List.mem_tails]⟩

namespace Layout

theorem follows_of_head {layout : Layout} {rest : List Char}
    (noWord : (layout.text ++ rest).head?.any isWordCharacter = false)
    (noOpening : (trimStart (layout.text ++ rest)).head? ≠ some '(')
    : layout.Follows := by
  have begins : ∀ {front back : List Char}, (front ++ back).head?.any isWordCharacter = false →
      front.head?.any isWordCharacter = false := by
    intro front back
    cases front with
    | nil => intro _; rfl
    | cons c front => exact id
  cases layout with
  | last stretch => exact begins noWord
  | group heading inner after =>
      rw [text, List.append_assoc] at noWord noOpening
      refine ⟨begins noWord, ?_⟩
      rw [Bool.eq_false_iff]
      intro blank
      apply noOpening
      rw [trimStart, List.dropWhile_append_of_pos (List.all_eq_true.mp blank), List.cons_append,
        List.dropWhile_cons_of_neg (by decide), List.head?_cons]

theorem apart_of_closingsApart {layout : Layout} (rest : List Char)
    (closings : ClosingsApart (layout.text ++ rest))
    : layout.Apart := by
  induction layout generalizing rest with
  | last stretch => trivial
  | group heading inner after innerIh afterIh =>
      have afterSuffix
          : ')' :: (after.text ++ rest) <:+ inner.text ++ ')' :: (after.text ++ rest) :=
        List.suffix_append _ _
      have innerSuffix : inner.text ++ ')' :: (after.text ++ rest)
          <:+ (group heading inner after).text ++ rest := by
        refine ⟨heading.chars ++ ['('], ?_⟩
        simp [text]
      obtain ⟨noWord, noOpening⟩ := closings _ (afterSuffix.trans innerSuffix)
      have inside : ClosingsApart (inner.text ++ ')' :: (after.text ++ rest)) :=
        fun tail isSuffix => closings tail (isSuffix.trans innerSuffix)
      have outside : ClosingsApart (after.text ++ rest) :=
        fun tail isSuffix => inside tail
          ((isSuffix.trans (List.suffix_cons _ _)).trans afterSuffix)
      exact ⟨innerIh _ inside, follows_of_head noWord noOpening, afterIh _ outside⟩

end Layout

-----------------------------------------------------------------------------------------
-- Parentheses of the notation
-----------------------------------------------------------------------------------------

/-- A call as it is shown in the end, given what is written for its body. -/
def Function.display (function : Function) (body : List Char) : List Char :=
  match function with
  | .pi => function.command
  | .sum | .sqrt | .average => function.command ++ '\x7b' :: body ++ ['\x7d']
  | .sin | .cos | .tan | .log => function.command ++ '(' :: body ++ [')']

/-- A text without the characters that stand in for parentheses of the notation. -/
def NoStandIn (text : List Char) : Prop :=
  ∀ c ∈ text, c ≠ Function.keptOpening ∧ c ≠ Function.keptClosing

instance : DecidablePred NoStandIn :=
  fun text => List.decidableBAll _ text

theorem restoreParentheses_append (front back : List Char)
    : restoreParentheses (front ++ back)
        = restoreParentheses front ++ restoreParentheses back :=
  List.map_append

theorem restoreParentheses_eq_self {text : List Char} (noStandIn : NoStandIn text)
    : restoreParentheses text = text := by
  refine (List.map_congr_left fun c member => ?_).trans (List.map_id _)
  rw [if_neg (noStandIn c member).1, if_neg (noStandIn c member).2, id]

theorem restoreParentheses_toLatex (function : Function) (body : List Char)
    : restoreParentheses (function.toLatex body)
        = function.display (restoreParentheses body) := by
  cases function <;>
    simp [restoreParentheses, Function.toLatex, Function.display, Function.command,
      Function.keptOpening, Function.keptClosing]

theorem Layout.restoreParentheses_typesetWith {layout : Layout}
    (noStandIn : NoStandIn layout.text)
    : restoreParentheses (layout.typesetWith Function.toLatex)
        = layout.typesetWith Function.display := by
  induction layout with
  | last stretch => exact restoreParentheses_eq_self noStandIn
  | group heading inner rest innerIh restIh =>
      simp only [NoStandIn, text, List.forall_mem_append, List.forall_mem_cons] at noStandIn
      obtain ⟨inHeading, _, inInner, _, inRest⟩ := noStandIn
      rw [typesetWith_group, typesetWith_group]
      cases converter? heading inner with
      | none =>
          have opening : ∀ tail,
              restoreParentheses ('(' :: tail) = '(' :: restoreParentheses tail :=
            fun _ => rfl
          have closing : ∀ tail,
              restoreParentheses (')' :: tail) = ')' :: restoreParentheses tail :=
            fun _ => rfl
          simp only [restoreParentheses_append, opening, closing,
            restoreParentheses_eq_self inHeading, innerIh inInner, restIh inRest]
      | some function =>
          have front : NoStandIn (beforeName heading.chars) := fun c member =>
            inHeading c ((List.rdropWhile_prefix isBlank _).subset
              ((List.rdropWhile_prefix isWordCharacter _).subset member))
          simp only [restoreParentheses_append, restoreParentheses_toLatex,
            restoreParentheses_eq_self front, innerIh inInner, restIh inRest]

-----------------------------------------------------------------------------------------
-- Operators
-----------------------------------------------------------------------------------------

/-- A text with its operators replaced by commands, in one scan from left to right. -/
def displayOperators : List Char → List Char
  | '<' :: '>' :: rest => [' ', '\\', 'n', 'e', 'q', ' '] ++ displayOperators rest
  | '<' :: '=' :: rest => [' ', '\\', 'l', 'e', 'q', ' '] ++ displayOperators rest
  | '>' :: '=' :: rest => [' ', '\\', 'g', 'e', 'q', ' '] ++ displayOperators rest
  | '*' :: rest => [' ', '\\', 'c', 'd', 'o', 't', ' '] ++ displayOperators rest
  | c :: rest => c :: displayOperators rest
  | [] => []

section replacePair

variable {first second : Char} {replacement : List Char}

theorem replacePair_pair (rest : List Char)
    : replacePair first second replacement (first :: second :: rest)
        = replacement ++ replacePair first second replacement rest := by
  rw [replacePair, if_pos ⟨rfl, rfl⟩]

theorem replacePair_cons {c : Char} {rest : List Char}
    (apart : c = first → rest.head? ≠ some second)
    : replacePair first second replacement (c :: rest)
        = c :: replacePair first second replacement rest := by
  cases rest with
  | nil => simp [replacePair]
  | cons d rest =>
      rw [replacePair, if_neg]
      rintro ⟨rfl, rfl⟩
      exact apart rfl rfl

/-- A text without the first character of a pair is kept. -/
theorem replacePair_append {front : List Char} (absent : first ∉ front) (back : List Char)
    : replacePair first second replacement (front ++ back)
        = front ++ replacePair first second replacement back := by
  induction front with
  | nil => rfl
  | cons c front ih =>
      rw [List.mem_cons, not_or] at absent
      rw [List.cons_append, replacePair_cons fun same => absurd same.symm absent.1, ih absent.2,
        List.cons_append]

/-- What replaces a pair is the only thing that a text can begin with anew. -/
theorem head?_replacePair {text : List Char} {c : Char} (other : replacement.head? ≠ some c)
    (nonempty : replacement ≠ [])
    (begins : (replacePair first second replacement text).head? = some c)
    : text.head? = some c := by
  cases text with
  | nil => exact begins
  | cons d rest =>
      cases rest with
      | nil => exact begins
      | cons e rest =>
          rw [replacePair] at begins
          split at begins
          · rw [List.head?_append_of_ne_nil _ nonempty] at begins
            exact absurd begins other
          · exact begins

end replacePair

/-- Replacing one operator after another comes to the same as one scan. -/
theorem replaceOperators_eq (text : List Char)
    : replaceOperators text = displayOperators text := by
  fun_induction displayOperators text with
  | case1 rest ih =>
      rw [← ih]
      simp only [replaceOperators]
      rw [replacePair_pair, replacePair_append (by decide), replacePair_append (by decide),
        List.flatMap_append]
      rfl
  | case2 rest ih =>
      rw [← ih]
      simp only [replaceOperators]
      rw [replacePair_cons (by simp), replacePair_cons (c := '=') (by simp), replacePair_pair,
        replacePair_append (by decide), List.flatMap_append]
      rfl
  | case3 rest ih =>
      rw [← ih]
      simp only [replaceOperators]
      rw [replacePair_cons (by simp), replacePair_cons (c := '=') (by simp),
        replacePair_cons (by simp), replacePair_cons (c := '=') (by simp), replacePair_pair,
        List.flatMap_append]
      rfl
  | case4 rest ih =>
      rw [← ih]
      simp only [replaceOperators]
      rw [replacePair_cons (by simp), replacePair_cons (by simp), replacePair_cons (by simp),
        List.flatMap_cons]
      rfl
  | case5 c rest noNotEqual noLessEqual noGreaterEqual noProduct ih =>
      have next : ∀ d, rest.head? = some d → ∃ more, rest = d :: more := fun d first =>
        ⟨rest.tail, List.eq_cons_of_mem_head? first⟩
      rw [← ih]
      simp only [replaceOperators]
      rw [replacePair_cons, replacePair_cons, replacePair_cons, List.flatMap_cons, if_neg]
      · rfl
      · rintro rfl
        exact noProduct rfl
      · rintro rfl begins
        have once := head?_replacePair (by simp) (by simp) begins
        obtain ⟨more, rfl⟩ := next '=' (head?_replacePair (by simp) (by simp) once)
        exact noGreaterEqual more rfl rfl
      · rintro rfl begins
        obtain ⟨more, rfl⟩ := next '=' (head?_replacePair (by simp) (by simp) begins)
        exact noLessEqual more rfl rfl
      · rintro rfl begins
        obtain ⟨more, rfl⟩ := next '>' begins
        exact noNotEqual more rfl rfl
  | case6 => rfl

-----------------------------------------------------------------------------------------
-- Conversion
-----------------------------------------------------------------------------------------

/-- Quick conversion rewrites exactly the convertible calls. The text of the formula has balanced
parentheses, nothing runs into a group from behind, and no character of it stands in for a
parenthesis. Then it can be laid out in one way, and is converted by writing every convertible
group of its layout as the call that it is, replacing operators, and tidying white space.
-/
theorem convert_eq_typesetWith (formula : String)
    (balanced : Balanced '(' ')' (formulaText formula.toList))
    (noStandIn : NoStandIn (formulaText formula.toList))
    (closings : ClosingsApart (formulaText formula.toList))
    : (∃! layout : Layout, layout.text = formulaText formula.toList)
      ∧ ∀ layout : Layout, layout.text = formulaText formula.toList →
        convert formula
          = String.ofList (collapseBlanks (trim
              (displayOperators (layout.typesetWith Function.display)))) := by
  refine ⟨Layout.existsUnique_of_balanced balanced, fun layout same => ?_⟩
  rw [← same] at noStandIn closings
  have apart : layout.Apart := Layout.apart_of_closingsApart [] (by simpa using closings)
  rw [convert, ← same, Layout.settle_text apart, Layout.restoreParentheses_typesetWith noStandIn,
    replaceOperators_eq]

/-- Calls inside a call, inside parentheses of their own, and inside a call by another name. -/
theorem convert_eq_typesetWith_nested
    : let formula := "= Sqrt ( SIN($A1)*2 )+((pi( )))<>f(LOG(PI(),2), SUM((1)))"
      Balanced '(' ')' (formulaText formula.toList) ∧ NoStandIn (formulaText formula.toList)
      ∧ ClosingsApart (formulaText formula.toList)
      ∧ (∃! layout : Layout, layout.text = formulaText formula.toList)
      ∧ ∀ layout : Layout, layout.text = formulaText formula.toList →
        convert formula
          = String.ofList (collapseBlanks (trim
              (displayOperators (layout.typesetWith Function.display)))) := by
  intro formula
  have balanced : Balanced '(' ')' (formulaText formula.toList) := by
    decide +kernel
  have noStandIn : NoStandIn (formulaText formula.toList) := by
    decide +kernel
  have closings : ClosingsApart (formulaText formula.toList) := by
    decide +kernel
  exact ⟨balanced, noStandIn, closings,
    convert_eq_typesetWith formula balanced noStandIn closings⟩

end FormulaLatex.Quick
