import Mathlib.Data.List.Forall2
import FormulaLatex.Proofs.Expr.Completeness
import FormulaLatex.Proofs.Latex.Pieces
import FormulaLatex.Proofs.Text.UpperCase

/-! Outlines. The outline of an expression is what its notation shows: fractions, powers and
calls with a notation of their own are calls of what they look like, with the arguments in the
order in which they are written. An outline is read from its terminals like any expression.
-/

namespace FormulaLatex

namespace Latex.CallStyle

/-- What calls in a notation of their own look like. -/
def label : CallStyle → String
  | .radical => "\\SQRT"
  | .overline => "\\OVERLINE"
  | .absoluteValue => "|"
  | .trigonometric command => Text.upperCase command
  | .conditional => "\\CASES"
  | .passThrough => ""

/-- The arguments in the order in which they are written, with what stands for missing ones. -/
def arrange (style : CallStyle) (arguments : List Expr) : List Expr :=
  match style with
  | .overline => if arguments.isEmpty then [.reference "x"] else arguments
  | .conditional =>
      arguments[1]?.getD (.reference "?") :: arguments[0]?.getD (.reference "?")
        :: arguments[2]?.toList
  | .radical | .absoluteValue | .trigonometric _ | .passThrough => arguments

theorem mem_arrange {style : CallStyle} {arguments : List Expr} {e : Expr}
    (member : e ∈ style.arrange arguments)
    : e ∈ arguments ∨ ∃ name, e = .reference name := by
  cases style with
  | overline =>
      rw [arrange] at member
      split at member
      · exact Or.inr ⟨_, List.mem_singleton.mp member⟩
      · exact Or.inl member
  | conditional =>
      have given : ∀ place : Nat, arguments[place]?.getD (.reference "?") ∈ arguments
          ∨ ∃ name, arguments[place]?.getD (.reference "?") = .reference name := by
        intro place
        cases found : arguments[place]? with
        | none => exact Or.inr ⟨"?", rfl⟩
        | some argument => exact Or.inl (List.mem_of_getElem? found)
      rw [arrange, List.mem_cons, List.mem_cons, Option.mem_toList] at member
      rcases member with rfl | rfl | otherwise
      · exact given 1
      · exact given 0
      · exact Or.inl (List.mem_of_getElem? otherwise)
  | radical => exact Or.inl member
  | absoluteValue => exact Or.inl member
  | trigonometric command => exact Or.inl member
  | passThrough => exact Or.inl member

end Latex.CallStyle

namespace Expr

/-- What operators that are not written between their operands look like. -/
def binaryLabel? : BinaryOperator → Option String
  | .divide => some "\\FRAC"
  | .power => some "^"
  | _ => none

/-- The outline of two operands joined by an operator. -/
def outlineBinary (op : BinaryOperator) (left right : Expr) : Expr :=
  match binaryLabel? op with
  | some label => .call label [left, right]
  | none => .binary op left right

/-- What a call looks like. -/
def callLabel (name : String) : String :=
  (Latex.callStyle? name).elim name Latex.CallStyle.label

/-- The arguments of a call as it is written. -/
def callArguments (name : String) (arguments : List Expr) : List Expr :=
  (Latex.callStyle? name).elim arguments fun style => style.arrange arguments

theorem mem_callArguments {name : String} {arguments : List Expr} {e : Expr}
    (member : e ∈ callArguments name arguments)
    : e ∈ arguments ∨ ∃ name, e = .reference name := by
  rw [callArguments] at member
  cases styled : Latex.callStyle? name with
  | none =>
      rw [styled] at member
      exact Or.inl member
  | some style =>
      rw [styled] at member
      exact Latex.CallStyle.mem_arrange member

mutual

/-- What the notation of an expression shows, when numbers are written in a style. -/
def outline (style : DecimalStyle) : Expr → Expr
  | .number text => .number (Latex.number style text)
  | .reference name => .reference name
  | .binary op left right => outlineBinary op (left.outline style) (right.outline style)
  | .negate operand => .negate (operand.outline style)
  | .call name arguments =>
      .call (callLabel name) (callArguments name (outlineAll style arguments))
  | .group inner => .group (inner.outline style)

def outlineAll (style : DecimalStyle) : List Expr → List Expr
  | [] => []
  | first :: rest => first.outline style :: outlineAll style rest

end

theorem outlineAll_eq_map (style : DecimalStyle) (es : List Expr)
    : outlineAll style es = es.map (outline style) := by
  induction es with
  | nil => rfl
  | cons first rest ih => rw [outlineAll, ih, List.map_cons]

theorem mem_furtherTerminals {terminal : Terminal} {es : List Expr}
    (member : terminal ∈ furtherTerminals es)
    : terminal = .separator ∨ ∃ e ∈ es, terminal ∈ e.terminals := by
  rw [furtherTerminals_eq_flatMap] at member
  obtain ⟨e, inList, inBlock⟩ := List.mem_flatMap.mp member
  rcases List.mem_cons.mp inBlock with separator | inTerminals
  · exact Or.inl separator
  · exact Or.inr ⟨e, inList, inTerminals⟩

theorem mem_argumentTerminals {terminal : Terminal} {es : List Expr}
    (member : terminal ∈ argumentTerminals es)
    : terminal = .separator ∨ ∃ e ∈ es, terminal ∈ e.terminals := by
  cases es with
  | nil => cases member
  | cons first rest =>
      rw [argumentTerminals] at member
      refine mem_furtherTerminals ?_
      rw [furtherTerminals]
      exact List.mem_cons_of_mem _ member

theorem mem_argumentTerminals_of_mem {terminal : Terminal} {e : Expr} {es : List Expr}
    (inList : e ∈ es) (member : terminal ∈ e.terminals)
    : terminal ∈ argumentTerminals es := by
  cases es with
  | nil => cases inList
  | cons first rest =>
      rw [argumentTerminals, List.mem_append, furtherTerminals_eq_flatMap]
      rcases List.mem_cons.mp inList with rfl | inRest
      · exact Or.inl member
      · exact Or.inr (List.mem_flatMap.mpr ⟨e, inRest, List.mem_cons_of_mem _ member⟩)

variable {p : Terminal → Prop}

theorem forall_terminals_binary {op : BinaryOperator} {left right : Expr}
    (all : ∀ terminal ∈ (Expr.binary op left right).terminals, p terminal)
    : (∀ terminal ∈ left.terminals, p terminal) ∧ ∀ terminal ∈ right.terminals, p terminal := by
  simp only [terminals, List.forall_mem_append, List.forall_mem_cons] at all
  exact ⟨all.1, all.2.2⟩

theorem forall_terminals_negate {operand : Expr}
    (all : ∀ terminal ∈ (Expr.negate operand).terminals, p terminal)
    : ∀ terminal ∈ operand.terminals, p terminal :=
  fun terminal member => all terminal (List.mem_cons_of_mem _ member)

theorem forall_terminals_group {inner : Expr}
    (all : ∀ terminal ∈ (Expr.group inner).terminals, p terminal)
    : ∀ terminal ∈ inner.terminals, p terminal := by
  intro terminal member
  exact all terminal (by simp [terminals, member])

theorem forall_terminals_call {name : String} {arguments : List Expr}
    (all : ∀ terminal ∈ (Expr.call name arguments).terminals, p terminal)
    : p ⟨.function, name⟩
      ∧ ∀ argument ∈ arguments, ∀ terminal ∈ argument.terminals, p terminal := by
  refine ⟨all ⟨.function, name⟩ List.mem_cons_self, ?_⟩
  intro argument inArguments terminal member
  have inside := mem_argumentTerminals_of_mem inArguments member
  exact all terminal (by simp [terminals, inside])

theorem Ranked.toComparison {associativity : PowerAssociativity} {category : Category}
    {e : Expr} (ranked : Ranked associativity category e)
    : Ranked associativity (.chain .comparison) e := by
  cases category with
  | primary => exact ranked.ofPrimary .comparison
  | chain rank =>
      cases rank with
      | comparison => exact ranked
      | additive => exact .operand ranked
      | multiplicative =>
          have sum : Ranked associativity (.chain .additive) e := .operand ranked
          exact .operand sum
      | power =>
          have product : Ranked associativity (.chain .multiplicative) e := .operand ranked
          have sum : Ranked associativity (.chain .additive) e := .operand product
          exact .operand sum

theorem Ranked.twoArguments {associativity : PowerAssociativity} {first second : Category}
    {name : String} {left right : Expr} (leftRanked : Ranked associativity first left)
    (rightRanked : Ranked associativity second right)
    : Ranked associativity .primary (.call name [left, right]) := by
  refine .call ?_
  simp only [List.forall_mem_cons]
  exact ⟨leftRanked.toComparison, rightRanked.toComparison, by simp⟩

/-- The outline of an expression is of the same category. -/
theorem Ranked.outline {associativity : PowerAssociativity} {category : Category} {e : Expr}
    (ranked : Ranked associativity category e) (style : DecimalStyle)
    : Ranked associativity category (e.outline style) := by
  induction ranked with
  | operand _ ih => exact .operand ih
  | @left rank op l r sort grouping _ _ leftIh rightIh =>
      cases op with
      | divide => exact (leftIh.twoArguments rightIh).ofPrimary rank
      | power => exact (leftIh.twoArguments rightIh).ofPrimary rank
      | _ => exact .left sort grouping leftIh rightIh
  | right _ _ _ leftIh rightIh => exact (leftIh.twoArguments rightIh).ofPrimary .power
  | number => exact .number
  | reference => exact .reference
  | negate _ ih => exact .negate ih
  | @call name arguments _ ih =>
      have outlined : ∀ argument ∈ outlineAll style arguments,
          Ranked associativity (.chain .comparison) argument := by
        intro argument member
        rw [outlineAll_eq_map] at member
        obtain ⟨original, inArguments, rfl⟩ := List.mem_map.mp member
        exact ih original inArguments
      refine .call fun argument member => ?_
      rcases mem_callArguments member with given | ⟨name, rfl⟩
      · exact outlined argument given
      · exact Ranked.reference.ofPrimary .comparison
  | group _ ih => exact .group ih

/-- All terminals of an expression are in canonical form: its function names are in upper
case.
-/
def Canonical (e : Expr) : Prop :=
  ∀ terminal ∈ e.terminals, terminal.canonical = terminal

theorem canonical_call_iff {name : String} {arguments : List Expr}
    : Canonical (.call name arguments)
        ↔ Text.upperCase name = name ∧ ∀ argument ∈ arguments, Canonical argument := by
  constructor
  · intro canonical
    refine ⟨?_, fun argument inArguments terminal member => ?_⟩
    · exact congrArg Terminal.text (canonical ⟨.function, name⟩ List.mem_cons_self)
    · have inside := mem_argumentTerminals_of_mem inArguments member
      exact canonical terminal (by simp [terminals, inside])
  · rintro ⟨upper, arguments⟩ terminal member
    simp only [terminals, List.mem_cons, List.mem_append, List.not_mem_nil, or_false] at member
    rcases member with rfl | rfl | inside | rfl
    · rw [Terminal.canonical, upper]
    · rfl
    · rcases mem_argumentTerminals inside with rfl | ⟨argument, inArguments, inTerminals⟩
      · rfl
      · exact arguments argument inArguments terminal inTerminals
    · rfl

theorem canonical_binary_iff {op : BinaryOperator} {left right : Expr}
    : Canonical (.binary op left right) ↔ Canonical left ∧ Canonical right := by
  simp only [Canonical, terminals, List.forall_mem_append, List.forall_mem_cons]
  exact and_congr_right fun _ => and_iff_right rfl

theorem Canonical.outlineBinary {op : BinaryOperator} {left right : Expr}
    (leftCanonical : Canonical left) (rightCanonical : Canonical right)
    : Canonical (outlineBinary op left right) := by
  have call : ∀ {name : String}, Text.upperCase name = name
      → Canonical (.call name [left, right]) := by
    intro name upper
    rw [canonical_call_iff, List.forall_mem_cons, List.forall_mem_singleton]
    exact ⟨upper, leftCanonical, rightCanonical⟩
  cases op with
  | divide => exact call (by decide +kernel)
  | power => exact call (by decide +kernel)
  | _ => exact canonical_binary_iff.mpr ⟨leftCanonical, rightCanonical⟩

theorem upperCase_label (style : Latex.CallStyle)
    : Text.upperCase style.label = style.label := by
  cases style with
  | trigonometric command => exact Text.upperCase_upperCase command
  | _ => decide +kernel

theorem upperCase_callLabel {name : String} (upper : Text.upperCase name = name)
    : Text.upperCase (callLabel name) = callLabel name := by
  rw [callLabel]
  cases Latex.callStyle? name with
  | none => exact upper
  | some style => exact upperCase_label style

theorem Canonical.outline {e : Expr} (canonical : Canonical e) (style : DecimalStyle)
    : Canonical (e.outline style) := by
  induction e using inductionOn with
  | number text => simp [Canonical, Expr.outline, terminals, Terminal.canonical]
  | reference name => simp [Canonical, Expr.outline, terminals, Terminal.canonical]
  | binary op left right leftIh rightIh =>
      obtain ⟨leftCanonical, rightCanonical⟩ := canonical_binary_iff.mp canonical
      exact .outlineBinary (leftIh leftCanonical) (rightIh rightCanonical)
  | negate operand ih =>
      simp only [Canonical, terminals, List.forall_mem_cons] at canonical
      simp only [Canonical, Expr.outline, terminals, List.forall_mem_cons]
      exact ⟨rfl, ih canonical.2⟩
  | call name arguments ih =>
      obtain ⟨upper, parts⟩ := canonical_call_iff.mp canonical
      have outlined : ∀ argument ∈ outlineAll style arguments, Canonical argument := by
        intro argument member
        rw [outlineAll_eq_map] at member
        obtain ⟨original, inArguments, rfl⟩ := List.mem_map.mp member
        exact ih original inArguments (parts original inArguments)
      refine canonical_call_iff.mpr ⟨upperCase_callLabel upper, fun argument member => ?_⟩
      rcases mem_callArguments member with given | ⟨name, rfl⟩
      · exact outlined argument given
      · simp [Canonical, terminals, Terminal.canonical]
  | group inner ih =>
      simp only [Canonical, terminals, List.forall_mem_cons, List.forall_mem_append]
        at canonical
      simp only [Canonical, Expr.outline, terminals, List.forall_mem_cons,
        List.forall_mem_append]
      exact ⟨rfl, ih canonical.2.1, by simp [Terminal.canonical, Terminal.closing]⟩

/-- Expressions that are ranked and have the same terminals are the same. -/
theorem Ranked.eq_of_canonical {associativity : PowerAssociativity} {e other : Expr}
    (ranked : Ranked associativity (.chain .comparison) e)
    (otherRanked : Ranked associativity (.chain .comparison) other)
    (canonical : Canonical e) (same : e.terminals = other.terminals)
    : e = other := by
  have kept : e.terminals.map Terminal.canonical = e.terminals := by
    rw [List.map_congr_left canonical, List.map_id']
  exact ranked.eq_of_terminals otherRanked kept (kept.trans same)

end Expr

end FormulaLatex
