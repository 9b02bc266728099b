import FormulaLatex.Convert
import FormulaLatex.Proofs.Latex.Unambiguous

/-! Calls that are passed over. Their first argument is written in their place, without anything
around it. Where that argument binds tightly enough for the place, notation still stands for one
expression only, up to parentheses of the formula and to numbers that are written alike.
-/

namespace FormulaLatex

open Text Latex Lexeme

namespace Expr

-----------------------------------------------------------------------------------------
-- What is shown of an expression
-----------------------------------------------------------------------------------------

mutual

/-- An expression built anew from below, with given forms of numbers, calls and groups. -/
def rebuild (number : String → Expr) (call : String → List Expr → Expr) (group : Expr → Expr)
    : Expr → Expr
  | .number text => number text
  | .reference name => .reference name
  | .binary op left right =>
      .binary op (left.rebuild number call group) (right.rebuild number call group)
  | .negate operand => .negate (operand.rebuild number call group)
  | .call name arguments => call name (rebuildAll number call group arguments)
  | .group inner => group (inner.rebuild number call group)

def rebuildAll (number : String → Expr) (call : String → List Expr → Expr) (group : Expr → Expr)
    : List Expr → List Expr
  | [] => []
  | first :: rest => first.rebuild number call group :: rebuildAll number call group rest

end

theorem rebuildAll_eq_map (number : String → Expr) (call : String → List Expr → Expr)
    (group : Expr → Expr) (es : List Expr)
    : rebuildAll number call group es = es.map (rebuild number call group) := by
  induction es with
  | nil => rfl
  | cons first rest ih => rw [rebuildAll, ih, List.map_cons]

/-- A call, or its first argument if the call is one that is passed over. -/
def passCall (name : String) (arguments : List Expr) : Expr :=
  match callStyle? name, arguments with
  | some .passThrough, first :: _ => first
  | _, arguments => .call name arguments

/-- What is shown of an expression: its numbers as they are written in a style, and of calls that
are passed over the first arguments. In the style that preserves them, numbers stay as they are.
-/
def shown (style : DecimalStyle) (e : Expr) : Expr :=
  e.rebuild (fun text => .number (Latex.number style text)) passCall .group

/-- An expression without its groups, which have served their purpose once it is read. -/
def ungroup (e : Expr) : Expr :=
  e.rebuild .number .call id

theorem passCall_cases (name : String) (arguments : List Expr)
    : callStyle? name = some .passThrough
          ∧ (∃ first rest, arguments = first :: rest ∧ passCall name arguments = first)
        ∨ passCall name arguments = .call name arguments := by
  unfold passCall
  split
  · rename_i first rest styled
    exact Or.inl ⟨styled, first, rest, rfl, rfl⟩
  · exact Or.inr rfl

theorem shown_call (style : DecimalStyle) (name : String) (arguments : List Expr)
    : (Expr.call name arguments).shown style = passCall name (arguments.map (shown style)) := by
  rw [shown, rebuild, rebuildAll_eq_map]
  rfl

theorem ungroup_call (name : String) (arguments : List Expr)
    : (Expr.call name arguments).ungroup = .call name (arguments.map ungroup) := by
  rw [ungroup, rebuild, rebuildAll_eq_map]
  rfl

/-- The notation of what is shown of an expression is that of the expression. -/
theorem toLatex_shown (renames : RenameTable) (options : RenderOptions) (e : Expr)
    : (e.shown options.decimalStyle).toLatex renames ⟨.preserve⟩ = e.toLatex renames options := by
  induction e using inductionOn with
  | number text => rfl
  | reference name => rfl
  | binary op left right leftIh rightIh =>
      exact congrArg₂ (Latex.binary op) leftIh rightIh
  | negate operand ih => exact congrArg ("-" ++ ·) ih
  | call name arguments ih =>
      have texts : ((arguments.map (shown options.decimalStyle)).map (toLatex renames ⟨.preserve⟩))
          = arguments.map (toLatex renames options) := by
        rw [List.map_map]
        exact List.map_congr_left ih
      rw [shown_call, toLatex, toLatexAll_eq_map, ← texts]
      rcases passCall_cases name (arguments.map (shown options.decimalStyle)) with
        ⟨styled, first, rest, parts, same⟩ | same
      · rw [same, parts, Latex.call, styled]
        rfl
      · rw [same, toLatex, toLatexAll_eq_map]
  | group inner ih => exact congrArg Latex.parenthesized ih

/-- What is true of all terminals of an expression is true of what is shown of it, if it does not
depend on how numbers are written.
-/
theorem forall_terminals_shown {p q : Terminal → Prop} {style : DecimalStyle}
    (number : ∀ text, p ⟨.number, text⟩ → q ⟨.number, Latex.number style text⟩)
    (other : ∀ terminal, terminal.role ≠ .number → p terminal → q terminal)
    (separator : q .separator) {e : Expr} (all : ∀ terminal ∈ e.terminals, p terminal)
    : ∀ terminal ∈ (e.shown style).terminals, q terminal := by
  induction e using inductionOn with
  | number text =>
      simp only [shown, rebuild, terminals, List.forall_mem_singleton] at all ⊢
      exact number text all
  | reference name =>
      simp only [shown, rebuild, terminals, List.forall_mem_singleton] at all ⊢
      exact other _ (by simp) all
  | binary op left right leftIh rightIh =>
      simp only [shown, rebuild, terminals, List.forall_mem_append, List.forall_mem_cons]
        at all ⊢
      obtain ⟨leftAll, operator, rightAll⟩ := all
      exact ⟨leftIh leftAll, other _ (by simp [Terminal.ofOperator]) operator, rightIh rightAll⟩
  | negate operand ih =>
      simp only [shown, rebuild, terminals, List.forall_mem_cons] at all ⊢
      exact ⟨other _ (by simp [Terminal.ofOperator]) all.1, ih all.2⟩
  | call name arguments ih =>
      obtain ⟨function, argumentsAll⟩ := forall_terminals_call all
      have parts : ∀ argument ∈ arguments.map (shown style),
          ∀ terminal ∈ argument.terminals, q terminal := by
        rw [List.forall_mem_map]
        exact fun argument member => ih argument member (argumentsAll argument member)
      rw [shown_call]
      rcases passCall_cases name (arguments.map (shown style)) with
        ⟨_, first, rest, same, passed⟩ | kept
      · rw [passed]
        exact parts first (by rw [same]; exact List.mem_cons_self)
      · rw [kept]
        simp only [terminals, List.forall_mem_append, List.forall_mem_cons, List.not_mem_nil,
          false_implies, implies_true, and_true] at all ⊢
        refine ⟨other _ (by simp) function, other _ (by simp [Terminal.opening]) all.2.1, ?_,
          other _ (by simp [Terminal.closing]) all.2.2.2⟩
        intro terminal member
        rcases mem_argumentTerminals member with rfl | ⟨argument, inArguments, inside⟩
        · exact separator
        · exact parts argument inArguments terminal inside
  | group inner ih =>
      simp only [shown, rebuild, terminals, List.forall_mem_append, List.forall_mem_cons,
        List.not_mem_nil, false_implies, implies_true, and_true] at all ⊢
      exact ⟨other _ (by simp [Terminal.opening]) all.1, ih all.2.1,
        other _ (by simp [Terminal.closing]) all.2.2⟩

theorem Canonical.shown {e : Expr} (canonical : Canonical e) (style : DecimalStyle)
    : Canonical (e.shown style) :=
  forall_terminals_shown (p := fun terminal => terminal.canonical = terminal)
    (q := fun terminal => terminal.canonical = terminal) (fun _ _ => rfl) (fun _ _ same => same)
    rfl canonical

/-- Names and numbers of what is shown of a formula are fit to be written, where either separator
may stand in numbers.
-/
theorem legible_shown {formula : String} {options : TokenizerOptions} {reader : ReaderOptions}
    {e : Expr} (read : Expr.ofTokens (tokenize formula options) reader = .ok e)
    (letters : ∀ name ∈ e.references, name.toList.head?.any isAlphabetic = true)
    (style : DecimalStyle)
    : (e.shown style).Legible .both := by
  have all : ∀ terminal ∈ e.terminals, terminal.Lexical options.decimalSeparators
      ∧ (terminal.role = .reference → terminal.text.toList.head?.any isAlphabetic = true) := by
    rintro ⟨role, text⟩ member
    refine ⟨lexical_of_mem_terminals read member, ?_⟩
    rintro ⟨⟩
    exact letters text (mem_references member)
  refine forall_terminals_shown ?_ ?_ trivial all
  · rintro text ⟨lexical, _⟩
    exact isNumber_number (lexical.number rfl) style
  · rintro ⟨role, text⟩ notNumber ⟨lexical, letter⟩
    cases role with
    | number => exact absurd rfl notNumber
    | reference => exact ⟨lexical.name (Or.inl rfl), letter rfl⟩
    | function => exact lexical.name (Or.inr rfl)
    | _ => trivial

/-- Expressions that are alike are alike without their groups. -/
theorem Alike.ungroup {e other : Expr} (alike : Alike e other)
    : Alike e.ungroup other.ungroup := by
  induction e using inductionOn generalizing other with
  | number text =>
      cases alike
      exact .number
  | reference name =>
      cases alike
      exact .reference
  | binary op left right leftIh rightIh =>
      cases alike with
      | binary leftAlike rightAlike => exact .binary (leftIh leftAlike) (rightIh rightAlike)
  | negate operand ih =>
      cases alike with
      | negate alike => exact .negate (ih alike)
  | call name arguments ih =>
      cases alike with
      | call sameNotation alike =>
          rw [ungroup_call, ungroup_call]
          refine .call sameNotation ?_
          rw [List.forall₂_map_left_iff, List.forall₂_map_right_iff]
          induction alike with
          | nil => exact .nil
          | cons first _ restIh =>
              rw [List.forall_mem_cons] at ih
              exact .cons (ih.1 first) (restIh ih.2)
  | group inner ih =>
      cases alike with
      | group alike =>
          have inside := ih alike
          exact inside

-----------------------------------------------------------------------------------------
-- Unambiguous notation
-----------------------------------------------------------------------------------------

/-- Whether the notation of an expression groups its operands as the expression does: its outline
is what the grammar reads it as.
-/
def GroupsAsWritten (associativity : PowerAssociativity) (e : Expr) : Prop :=
  Ranked associativity (.chain .comparison) (e.outline .preserve)

theorem canonical_of_ofTokens {tokens : List Token} {reader : ReaderOptions} {e : Expr}
    (read : Expr.ofTokens tokens reader = .ok e)
    : Canonical e := by
  intro terminal member
  obtain ⟨_, _, kept⟩ := ofTerminals_eq_ok_iff.mp read
  rw [← kept] at member
  obtain ⟨original, _, rfl⟩ := List.mem_map.mp member
  exact original.canonical_canonical

/-- The notation of an expression that groups as written has the terminals of its outline, and so
it belongs to one expression only.
-/
theorem alike_of_groupsAsWritten {associativity : PowerAssociativity} {e other : Expr}
    (legible : e.Legible .both) (otherLegible : other.Legible .both) (canonical : Canonical e)
    (keeps : e.KeepsArguments) (otherKeeps : other.KeepsArguments)
    (groups : e.GroupsAsWritten associativity) (otherGroups : other.GroupsAsWritten associativity)
    (same : e.toLatex .empty ⟨.preserve⟩ = other.toLatex .empty ⟨.preserve⟩)
    : Alike e other := by
  have reads : ∀ {e : Expr}, e.Legible .both → e.KeepsArguments →
      Reads (e.toLatex .empty ⟨.preserve⟩).toList (e.outline .preserve).terminals := by
    intro e legible keeps
    have written := writes_toLatex legible keeps ⟨.preserve⟩ [] [] .nil .nil
    rwa [List.append_nil, List.append_nil] at written
  have first := reads legible keeps
  rw [same] at first
  have outlines := groups.eq_of_canonical otherGroups (canonical.outline _)
    (first.unique (reads otherLegible otherKeeps))
  exact alike_of_faithful_outline (fun _ => rfl) legible otherLegible keeps otherKeeps
    outlines.symm

/-- Formulas that differ in what is shown of them have different notation. They are read under
the same options, their references begin with letters, no call drops an argument other than by
being passed over, and what takes the place of a call binds tightly enough for it.
-/
theorem toLatex_ne_of_not_alike_shown {formula otherFormula : String}
    {options : TokenizerOptions} {reader : ReaderOptions} {render : RenderOptions}
    {e other : Expr} (read : Expr.ofTokens (tokenize formula options) reader = .ok e)
    (otherRead : Expr.ofTokens (tokenize otherFormula options) reader = .ok other)
    (letters : ∀ name ∈ e.references, name.toList.head?.any isAlphabetic = true)
    (otherLetters : ∀ name ∈ other.references, name.toList.head?.any isAlphabetic = true)
    (keeps : (e.shown render.decimalStyle).KeepsArguments)
    (otherKeeps : (other.shown render.decimalStyle).KeepsArguments)
    (groups : (e.shown render.decimalStyle).GroupsAsWritten reader.powerAssociativity)
    (otherGroups : (other.shown render.decimalStyle).GroupsAsWritten reader.powerAssociativity)
    (different
      : ¬ Alike (e.shown render.decimalStyle).ungroup (other.shown render.decimalStyle).ungroup)
    : e.toLatex .empty render ≠ other.toLatex .empty render := by
  intro same
  rw [← toLatex_shown .empty render e, ← toLatex_shown .empty render other] at same
  have legible := legible_shown read letters render.decimalStyle
  have otherLegible := legible_shown otherRead otherLetters render.decimalStyle
  have canonical : Canonical (e.shown render.decimalStyle) :=
    (canonical_of_ofTokens read).shown render.decimalStyle
  exact different
    (alike_of_groupsAsWritten legible otherLegible canonical keeps otherKeeps groups otherGroups
      same).ungroup

/-- A rounded sum as a numerator, and a sum with a fraction. -/
theorem toLatex_ne_of_not_alike_shown_fraction
    : let e : Expr :=
        .binary .divide
          (.call "ROUND" [.binary .add (.reference "A1") (.reference "B1"), .number "2"])
          (.reference "C1")
      let other : Expr :=
        .binary .add (.reference "A1") (.binary .divide (.reference "B1") (.reference "C1"))
      Expr.ofTokens (tokenize "=ROUND(A1+B1;2)/C1") = .ok e
      ∧ Expr.ofTokens (tokenize "=A1+B1/C1") = .ok other
      ∧ (e.shown .comma).KeepsArguments ∧ (other.shown .comma).KeepsArguments
      ∧ (e.shown .comma).GroupsAsWritten .left ∧ (other.shown .comma).GroupsAsWritten .left
      ∧ ¬ Alike (e.shown .comma).ungroup (other.shown .comma).ungroup
      ∧ e.toLatex .empty {} ≠ other.toLatex .empty {} := by
  intro e other
  have read : Expr.ofTokens (tokenize "=ROUND(A1+B1;2)/C1") = .ok e := by
    have tokens : tokenize "=ROUND(A1+B1;2)/C1" =
        [⟨.function, "ROUND", 1⟩, ⟨.opening, "(", 6⟩, ⟨.reference, "A1", 7⟩,
          ⟨.operator, "+", 9⟩, ⟨.reference, "B1", 10⟩, ⟨.separator, ",", 12⟩,
          ⟨.number, "2", 13⟩, ⟨.closing, ")", 14⟩, ⟨.operator, "/", 15⟩,
          ⟨.reference, "C1", 16⟩] := by
      decide +kernel
    rw [tokens]
    rfl
  have otherRead : Expr.ofTokens (tokenize "=A1+B1/C1") = .ok other := by
    have tokens : tokenize "=A1+B1/C1" =
        [⟨.reference, "A1", 1⟩, ⟨.operator, "+", 3⟩, ⟨.reference, "B1", 4⟩,
          ⟨.operator, "/", 6⟩, ⟨.reference, "C1", 7⟩] := by
      decide +kernel
    rw [tokens]
    rfl
  have passed : callStyle? "ROUND" = some .passThrough := by
    decide +kernel
  have shown : e.shown .comma
      = .binary .divide (.binary .add (.reference "A1") (.reference "B1")) (.reference "C1") := by
    simp [e, Expr.shown, rebuild, rebuildAll, passCall, passed]
  have otherShown : other.shown .comma = other := rfl
  have keeps : (e.shown .comma).KeepsArguments := by
    simp [shown, KeepsArguments]
  have otherKeeps : (other.shown .comma).KeepsArguments := by
    simp [otherShown, other, KeepsArguments]
  have sum : ∀ {right : Expr}, Ranked .left .primary right →
      Ranked .left (.chain .comparison) (.binary .add (.reference "A1") right) := by
    intro right ranked
    have operand : Ranked .left (.chain .additive) (.reference "A1") :=
      Ranked.reference.ofPrimary .additive
    exact .operand (.left rfl (by simp) operand (ranked.ofPrimary .multiplicative))
  have groups : (e.shown .comma).GroupsAsWritten .left := by
    rw [shown, GroupsAsWritten]
    exact ((sum .reference).twoArguments Ranked.reference).ofPrimary .comparison
  have otherGroups : (other.shown .comma).GroupsAsWritten .left := by
    rw [otherShown, GroupsAsWritten]
    exact sum (Ranked.reference.twoArguments Ranked.reference)
  have different : ¬ Alike (e.shown .comma).ungroup (other.shown .comma).ungroup := by
    rw [shown, otherShown]
    intro alike
    cases alike
  exact ⟨read, otherRead, keeps, otherKeeps, groups, otherGroups, different,
    toLatex_ne_of_not_alike_shown read otherRead (by decide +kernel) (by decide +kernel) keeps
      otherKeeps groups otherGroups different⟩

/-- Without the two provisos notation can stand for two formulas. A sum that is passed over as a
factor is written without parentheses; and a number that may have been read with either separator
is written with one.
-/
theorem exists_toLatex_eq_of_not_alike
    : let product : Expr :=
        .binary .multiply (.call "ROUND" [.binary .add (.reference "A1") (.reference "B1")])
          (.reference "C1")
      let sum : Expr :=
        .binary .add (.reference "A1") (.binary .multiply (.reference "B1") (.reference "C1"))
      let both : TokenizerOptions := ⟨.both, true⟩
      Expr.ofFormula "=ROUND(A1+B1)*C1" = .ok product ∧ Expr.ofFormula "=A1+B1*C1" = .ok sum
      ∧ (∀ name ∈ product.references ++ sum.references,
          name.toList.head?.any isAlphabetic = true)
      ∧ (product.shown .preserve).KeepsArguments ∧ (sum.shown .preserve).KeepsArguments
      ∧ ¬ Alike (product.shown .preserve).ungroup (sum.shown .preserve).ungroup
      ∧ product.toLatex .empty {} = sum.toLatex .empty {}
      ∧ Expr.ofKnownTokens (tokenize "=1.5" both) = .ok (.number "1.5")
      ∧ Expr.ofKnownTokens (tokenize "=1,5" both) = .ok (.number "1,5")
      ∧ ¬ Alike ((Expr.number "1.5").shown .preserve).ungroup
          ((Expr.number "1,5").shown .preserve).ungroup
      ∧ (Expr.number "1.5").toLatex .empty {} = (Expr.number "1,5").toLatex .empty {} := by
  intro product sum both
  have productRead : Expr.ofFormula "=ROUND(A1+B1)*C1" = .ok product := by
    have tokens : tokenize "=ROUND(A1+B1)*C1" =
        [⟨.function, "ROUND", 1⟩, ⟨.opening, "(", 6⟩, ⟨.reference, "A1", 7⟩,
          ⟨.operator, "+", 9⟩, ⟨.reference, "B1", 10⟩, ⟨.closing, ")", 12⟩,
          ⟨.operator, "*", 13⟩, ⟨.reference, "C1", 14⟩] := by
      decide +kernel
    rw [Expr.ofFormula, tokens]
    rfl
  have sumRead : Expr.ofFormula "=A1+B1*C1" = .ok sum := by
    have tokens : tokenize "=A1+B1*C1" =
        [⟨.reference, "A1", 1⟩, ⟨.operator, "+", 3⟩, ⟨.reference, "B1", 4⟩,
          ⟨.operator, "*", 6⟩, ⟨.reference, "C1", 7⟩] := by
      decide +kernel
    rw [Expr.ofFormula, tokens]
    rfl
  have pointRead : Expr.ofKnownTokens (tokenize "=1.5" both) = .ok (.number "1.5") := by
    have tokens : tokenize "=1.5" both = [⟨.number, "1.5", 1⟩] := by
      decide +kernel
    rw [tokens]
    rfl
  have commaRead : Expr.ofKnownTokens (tokenize "=1,5" both) = .ok (.number "1,5") := by
    have tokens : tokenize "=1,5" both = [⟨.number, "1,5", 1⟩] := by
      decide +kernel
    rw [tokens]
    rfl
  have passed : callStyle? "ROUND" = some .passThrough := by
    decide +kernel
  have shown : product.shown .preserve
      = .binary .multiply (.binary .add (.reference "A1") (.reference "B1"))
        (.reference "C1") := by
    simp [product, Expr.shown, rebuild, rebuildAll, passCall, passed]
  have sumShown : sum.shown .preserve = sum := rfl
  have texts : ∀ {text other : String}, Alike (.number text) (.number other) → text = other := by
    rintro text other ⟨⟩
    rfl
  refine ⟨productRead, sumRead, by decide +kernel, ?_, ?_, ?_, by decide +kernel, pointRead,
    commaRead, fun alike => absurd (texts alike) (by decide), by decide +kernel⟩
  · simp [shown, KeepsArguments]
  · simp [sumShown, sum, KeepsArguments]
  · rw [shown, sumShown]
    intro alike
    cases alike

end Expr

end FormulaLatex
