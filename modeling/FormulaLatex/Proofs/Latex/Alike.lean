import FormulaLatex.Proofs.Latex.Outline
import FormulaLatex.Proofs.Token.LexicalGrammar

/-! What an outline tells. Expressions with the same outline are alike: they are the same but
for names of functions that share a notation. This needs names and numbers as formulas have
them, and calls that drop no argument.
-/

namespace FormulaLatex

open Text Latex Lexeme

-----------------------------------------------------------------------------------------
-- Alike
-----------------------------------------------------------------------------------------

/-- Whether calls of two functions are written alike: the names are the same, or they have the
same notation of their own.
-/
def Latex.SameNotation (name other : String) : Prop :=
  name = other ∨ ∃ style, callStyle? name = some style ∧ callStyle? other = some style

/-- Expressions that differ at most in names of functions that share a notation. -/
inductive Expr.Alike : Expr → Expr → Prop
  | number {text} : Alike (.number text) (.number text)
  | reference {name} : Alike (.reference name) (.reference name)
  | binary {op left right otherLeft otherRight} (leftAlike : Alike left otherLeft)
    (rightAlike : Alike right otherRight)
    : Alike (.binary op left right) (.binary op otherLeft otherRight)
  | negate {operand other} (alike : Alike operand other)
    : Alike (.negate operand) (.negate other)
  | call {name other arguments others} (sameNotation : Latex.SameNotation name other)
    (alike : List.Forall₂ Alike arguments others)
    : Alike (.call name arguments) (.call other others)
  | group {inner other} (alike : Alike inner other) : Alike (.group inner) (.group other)

/-- Whether a notation shows every one of a number of arguments. -/
def Latex.CallStyle.Keeps (style : CallStyle) (count : Nat) : Prop :=
  match style with
  | .radical | .absoluteValue | .trigonometric _ => count ≤ 1
  | .conditional => count ≤ 3
  | .overline => True
  | .passThrough => False

namespace Expr

mutual

/-- Whether no call in an expression drops an argument when it is written. -/
def KeepsArguments : Expr → Prop
  | .number _ | .reference _ => True
  | .binary _ left right => left.KeepsArguments ∧ right.KeepsArguments
  | .negate operand => operand.KeepsArguments
  | .call name arguments =>
      (∀ style, callStyle? name = some style → style.Keeps arguments.length)
        ∧ AllKeepArguments arguments
  | .group inner => inner.KeepsArguments

def AllKeepArguments : List Expr → Prop
  | [] => True
  | first :: rest => first.KeepsArguments ∧ AllKeepArguments rest

end

theorem allKeepArguments_iff {es : List Expr}
    : AllKeepArguments es ↔ ∀ e ∈ es, e.KeepsArguments := by
  induction es with
  | nil => simp [AllKeepArguments]
  | cons first rest ih => rw [AllKeepArguments, ih, List.forall_mem_cons]

end Expr

-----------------------------------------------------------------------------------------
-- Names and numbers
-----------------------------------------------------------------------------------------

/-- A name as tokens carry it: in upper case, and without a character that has a meaning in the
notation.
-/
structure PlainName (name : String) : Prop where
  plain : ∀ c ∈ name.toList, isPlain c = true
  upper : upperCase name = name

/-- What the text of a terminal is like. Only the names of references have to begin with a
letter.
-/
def Terminal.Legible (terminal : Terminal) (separators : DecimalSeparators := .point) : Prop :=
  match terminal.role with
  | .number => IsNumber separators terminal.text.toList
  | .reference => PlainName terminal.text ∧ terminal.text.toList.head?.any isAlphabetic = true
  | .function => PlainName terminal.text
  | _ => True

/-- All names and numbers of an expression are as tokens carry them. -/
def Expr.Legible (e : Expr) (separators : DecimalSeparators := .point) : Prop :=
  ∀ terminal ∈ e.terminals, terminal.Legible separators

variable {separators : DecimalSeparators}

/-- A number can be told from what is written for it, unless it was read with either separator
and is written with one.
-/
theorem number_injective {style : DecimalStyle} {text other : String}
    (faithful : separators = .both → style = .preserve)
    (number : IsNumber separators text.toList) (otherNumber : IsNumber separators other.toList)
    (same : Latex.number style text = Latex.number style other)
    : text = other := by
  have mapped : ∀ f back : Char → Char,
      (∀ c, c.isDigit = true ∨ separators.accepts c = true → back (f c) = c) →
      String.ofList (text.toList.map f) = String.ofList (other.toList.map f) → text = other := by
    intro f back restores same
    have restored : ∀ {chars : List Char}, IsNumber separators chars →
        (chars.map f).map back = chars := by
      intro chars number
      rw [List.map_map]
      exact (List.map_congr_left fun c member =>
        restores c (number.digit_or_separator c member)).trans (List.map_id _)
    have written := String.ofList_injective same
    rw [← String.toList_inj, ← restored number, written, restored otherNumber]
  have noDigit : ∀ {c : Char}, c.isDigit = true → c ≠ '.' ∧ c ≠ ',' := by
    intro c digit
    constructor <;> rintro rfl <;> cases digit
  cases style with
  | preserve => exact same
  | comma =>
      cases separators with
      | both => cases faithful rfl
      | point =>
          refine mapped _ (fun c => if c = ',' then '.' else c) (fun c known => ?_) same
          rcases known with digit | point
          · simp [noDigit digit]
          · simp [DecimalSeparators.accepts] at point
            simp [point]
      | comma =>
          refine mapped _ id (fun c known => ?_) same
          rcases known with digit | comma
          · simp [noDigit digit]
          · simp [DecimalSeparators.accepts] at comma
            simp [comma]
  | point =>
      cases separators with
      | both => cases faithful rfl
      | comma =>
          refine mapped _ (fun c => if c = '.' then ',' else c) (fun c known => ?_) same
          rcases known with digit | comma
          · simp [noDigit digit]
          · simp [DecimalSeparators.accepts] at comma
            simp [comma]
      | point =>
          refine mapped _ id (fun c known => ?_) same
          rcases known with digit | point
          · simp [noDigit digit]
          · simp [DecimalSeparators.accepts] at point
            simp [point]

namespace Expr

theorem Legible.binary {op : BinaryOperator} {left right : Expr}
    (legible : (Expr.binary op left right).Legible separators)
    : left.Legible separators ∧ right.Legible separators :=
  forall_terminals_binary legible

theorem Legible.negate {operand : Expr} (legible : (Expr.negate operand).Legible separators)
    : operand.Legible separators :=
  forall_terminals_negate legible

theorem Legible.group {inner : Expr} (legible : (Expr.group inner).Legible separators)
    : inner.Legible separators :=
  forall_terminals_group legible

theorem Legible.call {name : String} {arguments : List Expr}
    (legible : (Expr.call name arguments).Legible separators)
    : PlainName name ∧ ∀ argument ∈ arguments, argument.Legible separators :=
  forall_terminals_call legible

/-- What stands for something missing is no reference that a formula can have. -/
theorem Legible.outline_ne_reference {e : Expr} (legible : e.Legible separators)
    (style : DecimalStyle)
    : e.outline style ≠ .reference "x" ∧ e.outline style ≠ .reference "?" := by
  cases e with
  | reference name =>
      have named : PlainName name :=
        (legible ⟨.reference, name⟩ (List.mem_singleton.mpr rfl)).1
      constructor
      · rintro same
        obtain rfl : name = "x" := Expr.reference.inj same
        have upper := named.upper
        revert upper
        decide +kernel
      · rintro same
        obtain rfl : name = "?" := Expr.reference.inj same
        have plain := named.plain '?' (by decide)
        revert plain
        decide
  | binary op left right =>
      cases op <;> simp [outline, outlineBinary, binaryLabel?]
  | _ => simp [outline]

end Expr

-----------------------------------------------------------------------------------------
-- Labels
-----------------------------------------------------------------------------------------

theorem mem_styles {name : String} {style : CallStyle} (styled : callStyle? name = some style)
    : style ∈ callStyles.map Prod.snd := by
  obtain ⟨before, after, same, _⟩ := List.lookup_eq_some_iff.mp styled
  rw [same]
  simp

theorem labels_apart
    : ∀ style ∈ callStyles.map Prod.snd, ∀ other ∈ callStyles.map Prod.snd,
      style.label = other.label → style = other := by
  decide +kernel

theorem labels_begin
    : ∀ style ∈ callStyles.map Prod.snd, style ≠ .passThrough →
      style.label ≠ "\\FRAC" ∧ style.label ≠ "^"
      ∧ style.label.toList.any (fun c => !isPlain c) = true := by
  decide +kernel

theorem PlainName.not_any {name : String} (named : PlainName name)
    : name.toList.any (fun c => !isPlain c) = false := by
  rw [List.any_eq_false]
  intro c member
  simp [named.plain c member]

theorem Latex.CallStyle.Keeps.ne_passThrough {style : CallStyle} {count : Nat}
    (keeps : style.Keeps count)
    : style ≠ .passThrough := by
  rintro rfl
  exact keeps

/-- A notation of its own does not look like a name. -/
theorem label_ne_name {name other : String} {style : CallStyle} {count : Nat}
    (styled : callStyle? name = some style) (keeps : style.Keeps count)
    (named : PlainName other)
    : style.label ≠ other := by
  rintro rfl
  obtain ⟨_, _, marked⟩ := labels_begin style (mem_styles styled) keeps.ne_passThrough
  rw [named.not_any] at marked
  cases marked

namespace Expr

/-- A call does not look like a fraction or a power. -/
theorem callLabel_ne_binaryLabel {op : BinaryOperator} {name label : String} {count : Nat}
    (named : PlainName name) (keeps : ∀ style, callStyle? name = some style → style.Keeps count)
    (labelled : binaryLabel? op = some label)
    : callLabel name ≠ label := by
  have binary : label = "\\FRAC" ∨ label = "^" := by
    cases op <;> simp_all [binaryLabel?]
  cases styled : callStyle? name with
  | some style =>
      obtain ⟨fraction, power, _⟩ :=
        labels_begin style (mem_styles styled) (keeps style styled).ne_passThrough
      rw [callLabel, styled, Option.elim_some]
      rcases binary with rfl | rfl
      · exact fraction
      · exact power
  | none =>
      rw [callLabel, styled, Option.elim_none]
      rintro rfl
      have plain := named.not_any
      revert plain
      rcases binary with rfl | rfl <;> decide +kernel

/-- Calls that look alike are of functions that share a notation. -/
theorem sameNotation_of_callLabel {name other : String} {count otherCount : Nat}
    (named : PlainName name) (otherNamed : PlainName other)
    (keeps : ∀ style, callStyle? name = some style → style.Keeps count)
    (otherKeeps : ∀ style, callStyle? other = some style → style.Keeps otherCount)
    (same : callLabel name = callLabel other)
    : callStyle? name = callStyle? other ∧ SameNotation name other := by
  rw [callLabel, callLabel] at same
  cases styled : callStyle? name with
  | none =>
      cases otherStyled : callStyle? other with
      | none =>
          rw [styled, otherStyled, Option.elim_none, Option.elim_none] at same
          exact ⟨rfl, Or.inl same⟩
      | some style =>
          rw [styled, otherStyled, Option.elim_none, Option.elim_some] at same
          exact absurd same.symm (label_ne_name otherStyled (otherKeeps style otherStyled) named)
  | some style =>
      cases otherStyled : callStyle? other with
      | none =>
          rw [styled, otherStyled, Option.elim_none, Option.elim_some] at same
          exact absurd same (label_ne_name styled (keeps style styled) otherNamed)
      | some otherStyle =>
          rw [styled, otherStyled, Option.elim_some, Option.elim_some] at same
          obtain rfl := labels_apart style (mem_styles styled) otherStyle
            (mem_styles otherStyled) same
          exact ⟨rfl, Or.inr ⟨style, styled, otherStyled⟩⟩

theorem eq_of_getD_eq {value other : Option Expr} {missing : Expr} (given : missing ∉ value)
    (otherGiven : missing ∉ other) (same : value.getD missing = other.getD missing)
    : value = other := by
  cases value with
  | none =>
      cases other with
      | none => rfl
      | some e =>
          obtain rfl : missing = e := same
          exact absurd rfl otherGiven
  | some e =>
      cases other with
      | none =>
          obtain rfl : e = missing := same
          exact absurd rfl given
      | some otherE => exact congrArg some same

/-- What the arguments of a call can be told from: they are all written, and none is written
as what stands for a missing one.
-/
theorem arrange_injective {style : CallStyle} {arguments others : List Expr}
    (keeps : style.Keeps arguments.length) (otherKeeps : style.Keeps others.length)
    (given : ∀ e ∈ arguments, e ≠ .reference "x" ∧ e ≠ .reference "?")
    (otherGiven : ∀ e ∈ others, e ≠ .reference "x" ∧ e ≠ .reference "?")
    (same : style.arrange arguments = style.arrange others)
    : arguments = others := by
  cases style with
  | overline =>
      simp only [CallStyle.arrange, List.isEmpty_iff] at same
      by_cases empty : arguments = [] <;> by_cases otherEmpty : others = []
      · rw [empty, otherEmpty]
      · rw [if_pos empty, if_neg otherEmpty] at same
        exact absurd rfl (otherGiven (.reference "x") (same ▸ List.mem_cons_self)).1
      · rw [if_neg empty, if_pos otherEmpty] at same
        exact absurd rfl (given (.reference "x") (same ▸ List.mem_cons_self)).1
      · rwa [if_neg empty, if_neg otherEmpty] at same
  | conditional =>
      have present : ∀ {es : List Expr}, (∀ e ∈ es, e ≠ .reference "x" ∧ e ≠ .reference "?")
          → ∀ place : Nat, Expr.reference "?" ∉ es[place]? := by
        intro es given place found
        exact (given _ (List.mem_of_getElem? found)).2 rfl
      have place : ∀ {i : Nat}, arguments[i]?.getD (.reference "?")
          = others[i]?.getD (.reference "?") → arguments[i]? = others[i]? :=
        eq_of_getD_eq (present given _) (present otherGiven _)
      rw [CallStyle.arrange, CallStyle.arrange] at same
      obtain ⟨second, same⟩ := List.cons.inj same
      obtain ⟨first, third⟩ := List.cons.inj same
      refine List.ext_getElem? fun i => ?_
      rcases i with _ | _ | _ | i
      · exact place first
      · exact place second
      · simpa using congrArg List.head? third
      · change arguments.length ≤ 3 at keeps
        change others.length ≤ 3 at otherKeeps
        rw [List.getElem?_eq_none (by omega), List.getElem?_eq_none (by omega)]
  | radical => exact same
  | absoluteValue => exact same
  | trigonometric command => exact same
  | passThrough => exact same

theorem callArguments_injective {name other : String} {arguments others : List Expr}
    (shared : callStyle? name = callStyle? other)
    (keeps : ∀ style, callStyle? name = some style → style.Keeps arguments.length)
    (otherKeeps : ∀ style, callStyle? other = some style → style.Keeps others.length)
    (given : ∀ e ∈ arguments, e ≠ .reference "x" ∧ e ≠ .reference "?")
    (otherGiven : ∀ e ∈ others, e ≠ .reference "x" ∧ e ≠ .reference "?")
    (same : callArguments name arguments = callArguments other others)
    : arguments = others := by
  rw [callArguments, callArguments, ← shared] at same
  cases styled : callStyle? name with
  | none =>
      rw [styled] at same
      exact same
  | some style =>
      rw [styled] at same
      exact arrange_injective (keeps style styled) (otherKeeps style (shared ▸ styled)) given
        otherGiven same

-----------------------------------------------------------------------------------------
-- From outlines back to expressions
-----------------------------------------------------------------------------------------

theorem outlineBinary_cases (op : BinaryOperator) (left right : Expr)
    : (∃ label, binaryLabel? op = some label
        ∧ outlineBinary op left right = .call label [left, right])
      ∨ (binaryLabel? op = none ∧ outlineBinary op left right = .binary op left right) := by
  cases op with
  | divide => exact Or.inl ⟨_, rfl, rfl⟩
  | power => exact Or.inl ⟨_, rfl, rfl⟩
  | _ => exact Or.inr ⟨rfl, rfl⟩

variable {style : DecimalStyle} {e : Expr}

theorem outline_binary_ne {op : BinaryOperator} {left right : Expr}
    (notCall : ∀ label arguments, e ≠ .call label arguments)
    (notBinary : ∀ op left right, e ≠ .binary op left right)
    : (Expr.binary op left right).outline style ≠ e := by
  rw [outline]
  rcases outlineBinary_cases op (left.outline style) (right.outline style) with
    ⟨_, _, shape⟩ | ⟨_, shape⟩
  · rw [shape]
    exact (notCall _ _).symm
  · rw [shape]
    exact (notBinary _ _ _).symm

theorem outline_eq_number {text : String} (same : e.outline style = .number text)
    : ∃ original, e = .number original ∧ Latex.number style original = text := by
  cases e with
  | number original => exact ⟨original, rfl, Expr.number.inj same⟩
  | binary op left right => exact absurd same (outline_binary_ne (by simp) (by simp))
  | _ => cases same

theorem outline_eq_reference {name : String} (same : e.outline style = .reference name)
    : e = .reference name := by
  cases e with
  | reference original => exact same
  | binary op left right => exact absurd same (outline_binary_ne (by simp) (by simp))
  | _ => cases same

theorem outline_eq_binary {op : BinaryOperator} {left right : Expr}
    (same : e.outline style = .binary op left right)
    : ∃ originalLeft originalRight, e = .binary op originalLeft originalRight
      ∧ originalLeft.outline style = left ∧ originalRight.outline style = right := by
  cases e with
  | binary original originalLeft originalRight =>
      rw [outline] at same
      rcases outlineBinary_cases original (originalLeft.outline style)
        (originalRight.outline style) with ⟨_, _, shape⟩ | ⟨_, shape⟩
      · rw [shape] at same
        cases same
      · rw [shape] at same
        obtain ⟨rfl, leftSame, rightSame⟩ := Expr.binary.inj same
        exact ⟨originalLeft, originalRight, rfl, leftSame, rightSame⟩
  | _ => cases same

theorem outline_eq_negate {operand : Expr} (same : e.outline style = .negate operand)
    : ∃ original, e = .negate original ∧ original.outline style = operand := by
  cases e with
  | negate original => exact ⟨original, rfl, Expr.negate.inj same⟩
  | binary op left right => exact absurd same (outline_binary_ne (by simp) (by simp))
  | _ => cases same

theorem outline_eq_group {inner : Expr} (same : e.outline style = .group inner)
    : ∃ original, e = .group original ∧ original.outline style = inner := by
  cases e with
  | group original => exact ⟨original, rfl, Expr.group.inj same⟩
  | binary op left right => exact absurd same (outline_binary_ne (by simp) (by simp))
  | _ => cases same

theorem outline_eq_call {label : String} {arguments : List Expr}
    (same : e.outline style = .call label arguments)
    : (∃ op left right, e = .binary op left right ∧ binaryLabel? op = some label
        ∧ arguments = [left.outline style, right.outline style])
      ∨ ∃ name originals, e = .call name originals ∧ callLabel name = label
        ∧ callArguments name (originals.map (outline style)) = arguments := by
  cases e with
  | call name originals =>
      rw [outline, outlineAll_eq_map] at same
      obtain ⟨labels, parts⟩ := Expr.call.inj same
      exact Or.inr ⟨name, originals, rfl, labels, parts⟩
  | binary op left right =>
      rw [outline] at same
      rcases outlineBinary_cases op (left.outline style) (right.outline style) with
        ⟨binaryLabel, labelled, shape⟩ | ⟨_, shape⟩
      · rw [shape] at same
        obtain ⟨rfl, parts⟩ := Expr.call.inj same
        exact Or.inl ⟨op, left, right, rfl, labelled, parts.symm⟩
      · rw [shape] at same
        cases same
  | _ => cases same

theorem binaryLabel?_injective {op other : BinaryOperator} {label : String}
    (labelled : binaryLabel? op = some label) (otherLabelled : binaryLabel? other = some label)
    : op = other := by
  have shared : binaryLabel? op = binaryLabel? other := labelled.trans otherLabelled.symm
  have present : (binaryLabel? op).isSome = true := by
    rw [labelled, Option.isSome_some]
  revert shared present
  cases op <;> cases other <;> decide

theorem forall₂_alike {es others : List Expr}
    (alike : ∀ e ∈ es, ∀ other ∈ others, other.outline style = e.outline style → Alike e other)
    (same : others.map (outline style) = es.map (outline style))
    : List.Forall₂ Alike es others := by
  induction es generalizing others with
  | nil =>
      obtain rfl := List.map_eq_nil_iff.mp same
      exact .nil
  | cons e rest ih =>
      obtain ⟨other, others, rfl, first, restSame⟩ := List.map_eq_cons_iff.mp same
      refine .cons (alike e List.mem_cons_self other List.mem_cons_self first) (ih ?_ restSame)
      intro e inRest other inOthers
      exact alike e (List.mem_cons_of_mem _ inRest) other (List.mem_cons_of_mem _ inOthers)

/-- Expressions with the same outline are alike if numbers can be told from what is written. -/
theorem alike_of_faithful_outline {other : Expr}
    (faithful : separators = .both → style = .preserve) (legible : e.Legible separators)
    (otherLegible : other.Legible separators) (keeps : e.KeepsArguments)
    (otherKeeps : other.KeepsArguments) (same : other.outline style = e.outline style)
    : Alike e other := by
  induction e using inductionOn generalizing other with
  | number text =>
      obtain ⟨original, rfl, written⟩ := outline_eq_number same
      have number := legible ⟨.number, text⟩ (List.mem_singleton.mpr rfl)
      have otherNumber := otherLegible ⟨.number, original⟩ (List.mem_singleton.mpr rfl)
      obtain rfl := number_injective faithful otherNumber number written
      exact .number
  | reference name =>
      obtain rfl := outline_eq_reference same
      exact .reference
  | binary op left right leftIh rightIh =>
      obtain ⟨leftLegible, rightLegible⟩ := legible.binary
      rw [outline] at same
      rcases outlineBinary_cases op (left.outline style) (right.outline style) with
        ⟨label, labelled, shape⟩ | ⟨_, shape⟩
      · rw [shape] at same
        rcases outline_eq_call same with
          ⟨otherOp, otherLeft, otherRight, rfl, otherLabelled, parts⟩
            | ⟨name, originals, rfl, labels, _⟩
        · obtain rfl := binaryLabel?_injective labelled otherLabelled
          obtain ⟨otherLeftLegible, otherRightLegible⟩ := otherLegible.binary
          obtain ⟨leftSame, parts⟩ := List.cons.inj parts
          obtain ⟨rightSame, _⟩ := List.cons.inj parts
          exact .binary (leftIh leftLegible otherLeftLegible keeps.1 otherKeeps.1 leftSame.symm)
            (rightIh rightLegible otherRightLegible keeps.2 otherKeeps.2 rightSame.symm)
        · obtain ⟨named, _⟩ := otherLegible.call
          exact absurd labels (callLabel_ne_binaryLabel named otherKeeps.1 labelled)
      · rw [shape] at same
        obtain ⟨otherLeft, otherRight, rfl, leftSame, rightSame⟩ := outline_eq_binary same
        obtain ⟨otherLeftLegible, otherRightLegible⟩ := otherLegible.binary
        exact .binary (leftIh leftLegible otherLeftLegible keeps.1 otherKeeps.1 leftSame)
          (rightIh rightLegible otherRightLegible keeps.2 otherKeeps.2 rightSame)
  | negate operand ih =>
      obtain ⟨original, rfl, inside⟩ := outline_eq_negate same
      exact .negate (ih legible.negate otherLegible.negate keeps otherKeeps inside)
  | call name arguments ih =>
      obtain ⟨named, partsLegible⟩ := legible.call
      obtain ⟨shown, partsKeep⟩ := keeps
      rw [outline, outlineAll_eq_map] at same
      rcases outline_eq_call same with
        ⟨op, left, right, rfl, labelled, _⟩ | ⟨otherName, others, rfl, labels, parts⟩
      · exact absurd rfl (callLabel_ne_binaryLabel named shown labelled)
      · obtain ⟨otherNamed, othersLegible⟩ := otherLegible.call
        obtain ⟨otherShown, othersKeep⟩ := otherKeeps
        obtain ⟨shared, sameNotation⟩ :=
          sameNotation_of_callLabel named otherNamed shown otherShown labels.symm
        have given : ∀ {es : List Expr}, (∀ e ∈ es, e.Legible separators) →
            ∀ e ∈ es.map (outline style), e ≠ .reference "x" ∧ e ≠ .reference "?" := by
          intro es legible
          rw [List.forall_mem_map]
          exact fun e member => (legible e member).outline_ne_reference style
        have written : others.map (outline style) = arguments.map (outline style) :=
          callArguments_injective shared.symm (by simpa using otherShown) (by simpa using shown)
            (given othersLegible) (given partsLegible) parts
        refine .call sameNotation (forall₂_alike ?_ written)
        intro e inArguments other inOthers outlines
        exact ih e inArguments (partsLegible e inArguments) (othersLegible other inOthers)
          (allKeepArguments_iff.mp partsKeep e inArguments)
          (allKeepArguments_iff.mp othersKeep other inOthers) outlines
  | group inner ih =>
      obtain ⟨original, rfl, inside⟩ := outline_eq_group same
      exact .group (ih legible.group otherLegible.group keeps otherKeeps inside)

/-- With a decimal point, numbers can always be told from what is written. -/
theorem alike_of_outline {other : Expr} (legible : e.Legible)
    (otherLegible : other.Legible) (keeps : e.KeepsArguments)
    (otherKeeps : other.KeepsArguments) (same : other.outline style = e.outline style)
    : Alike e other := by
  have faithful : DecimalSeparators.point = .both → style = .preserve := nofun
  exact alike_of_faithful_outline faithful legible otherLegible keeps otherKeeps same

end Expr

end FormulaLatex
