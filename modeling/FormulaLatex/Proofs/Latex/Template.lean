import Mathlib.Data.List.Flatten
import Mathlib.Data.List.Perm.Subperm
import FormulaLatex.Proofs.Expr.References
import FormulaLatex.Proofs.Latex.Writing

/-! Templates of notation. A rename table decides nothing about the notation of an expression but
what stands in its holes: whatever the table is, the notation is one and the same template, in
which each hole is filled with what the table shows for a name.
-/

namespace FormulaLatex

namespace Latex

-----------------------------------------------------------------------------------------
-- Templates
-----------------------------------------------------------------------------------------

/-- A part of a template: a text that stays, or a hole for what is shown for a name. -/
inductive Part
  | text (text : String)
  | hole (name : String)

/-- A template with every hole filled with what is shown for its name. -/
def fill (shown : String → String) : List Part → String
  | [] => ""
  | .text text :: rest => text ++ fill shown rest
  | .hole name :: rest => shown name ++ fill shown rest

/-- The names of the holes of a template, in the order in which they are written. -/
def holes : List Part → List String
  | [] => []
  | .text _ :: rest => holes rest
  | .hole name :: rest => name :: holes rest

@[simp]
theorem fill_append (shown : String → String) (front back : List Part)
    : fill shown (front ++ back) = fill shown front ++ fill shown back := by
  induction front with
  | nil => simp [fill]
  | cons part rest ih => cases part <;> simp [fill, ih, String.append_assoc]

@[simp]
theorem holes_append (front back : List Part)
    : holes (front ++ back) = holes front ++ holes back := by
  induction front with
  | nil => rfl
  | cons part rest ih => cases part <;> simp [holes, ih]

/-- A template is filled alike with what is shown alike in its holes. -/
theorem fill_congr {shown other : String → String} {template : List Part}
    (same : ∀ name ∈ holes template, shown name = other name)
    : fill shown template = fill other template := by
  induction template with
  | nil => rfl
  | cons part rest ih =>
      cases part with
      | text text => exact congrArg (text ++ ·) (ih same)
      | hole name =>
          obtain ⟨first, others⟩ := List.forall_mem_cons.mp same
          rw [fill, fill, first, ih others]

/-- A text that depends on a table only by what the table shows in the holes of a template. The
holes bear the given names, in whatever order.
-/
def HasTemplate (names : List String) (text : RenameTable → String) : Prop :=
  ∃ template, (holes template).Perm names ∧ ∀ table, text table = fill table.resolve template

namespace HasTemplate

variable {names others : List String} {text left right : RenameTable → String}

theorem perm (has : HasTemplate names text) (same : names.Perm others)
    : HasTemplate others text := by
  obtain ⟨template, bears, filled⟩ := has
  exact ⟨template, bears.trans same, filled⟩

theorem congr (has : HasTemplate names left) (same : ∀ table, right table = left table)
    : HasTemplate names right := by
  rwa [funext same]

theorem fixed (text : String) : HasTemplate [] fun _ => text :=
  ⟨[.text text], .nil, fun _ => String.append_empty.symm⟩

theorem resolve (name : String) : HasTemplate [name] fun table => table.resolve name :=
  ⟨[.hole name], .refl _, fun _ => String.append_empty.symm⟩

theorem append (hasLeft : HasTemplate names left) (hasRight : HasTemplate others right)
    : HasTemplate (names ++ others) fun table => left table ++ right table := by
  obtain ⟨front, bears, filled⟩ := hasLeft
  obtain ⟨back, otherBears, otherFilled⟩ := hasRight
  refine ⟨front ++ back, ?_, fun table => ?_⟩
  · rw [holes_append]
    exact bears.append otherBears
  · simp only [fill_append, filled, otherFilled]

/-- Fixed text may stand on either side. -/
theorem between (before after : String) (has : HasTemplate names text)
    : HasTemplate names fun table => before ++ text table ++ after := by
  have whole := ((fixed before).append has).append (fixed after)
  rwa [List.nil_append, List.append_nil] at whole

theorem after (before : String) (has : HasTemplate names text)
    : HasTemplate names fun table => before ++ text table :=
  (fixed before).append has

theorem braced (has : HasTemplate names text)
    : HasTemplate names fun table => Latex.braced (text table) :=
  has.between "\x7b" "\x7d"

/-- Fixed text may stand between two texts. -/
theorem joined (middle : String) (hasLeft : HasTemplate names left)
    (hasRight : HasTemplate others right)
    : HasTemplate (names ++ others) fun table => left table ++ middle ++ right table := by
  have whole := (hasLeft.append (fixed middle)).append hasRight
  rwa [List.append_nil] at whole

end HasTemplate

-----------------------------------------------------------------------------------------
-- Calls
-----------------------------------------------------------------------------------------

/-- The arguments that a notation shows. -/
def CallStyle.shownArguments {α : Type} (style : CallStyle) (arguments : List α) : List α :=
  match style with
  | .overline => arguments
  | .conditional => arguments.take 3
  | .radical | .absoluteValue | .trigonometric _ | .passThrough => arguments.take 1

/-- The arguments that a call shows. -/
def shownArguments {α : Type} (name : String) (arguments : List α) : List α :=
  (callStyle? name).elim arguments fun style => style.shownArguments arguments

theorem shownArguments_sublist {α : Type} (name : String) (arguments : List α)
    : (shownArguments name arguments).Sublist arguments := by
  rw [shownArguments]
  cases callStyle? name with
  | none => exact List.Sublist.refl _
  | some style =>
      cases style with
      | overline => exact List.Sublist.refl _
      | _ => exact List.take_sublist _ _

theorem shownArguments_of_keeps {α : Type} {name : String} {arguments : List α}
    (keeps : ∀ style, callStyle? name = some style → style.Keeps arguments.length)
    : shownArguments name arguments = arguments := by
  rw [shownArguments]
  cases styled : callStyle? name with
  | none => rfl
  | some style =>
      have kept := keeps style styled
      cases style with
      | overline => rfl
      | passThrough => exact kept.elim
      | _ => exact List.take_of_length_le kept

theorem shownArguments_map {α β : Type} (f : α → β) (name : String) (arguments : List α)
    : shownArguments name (arguments.map f) = (shownArguments name arguments).map f := by
  rw [shownArguments, shownArguments]
  cases callStyle? name with
  | none => rfl
  | some style =>
      cases style with
      | overline => rfl
      | _ => exact (List.map_take ..).symm

section Arguments

variable {α : Type} {names : α → List String} {text : α → RenameTable → String}
  {arguments : List α}

theorem HasTemplate.intercalate (separator : String)
    (each : ∀ argument ∈ arguments, HasTemplate (names argument) (text argument))
    : HasTemplate (arguments.flatMap names) fun table =>
        separator.intercalate (arguments.map fun argument => text argument table) := by
  induction arguments with
  | nil => exact .fixed ""
  | cons first rest ih =>
      obtain ⟨firstHas, others⟩ := List.forall_mem_cons.mp each
      cases rest with
      | nil => simpa using firstHas
      | cons second rest =>
          refine (firstHas.joined separator (ih others)).congr fun table => ?_
          rw [List.map_cons, List.map_cons, String.intercalate_cons_cons]

/-- An argument, or what stands for it when it is missing. -/
theorem HasTemplate.orMissing (missing : String) {argument? : Option α}
    (each : ∀ argument ∈ argument?, HasTemplate (names argument) (text argument))
    : HasTemplate (argument?.toList.flatMap names) fun table =>
        (argument?.map fun argument => text argument table).getD missing := by
  cases argument? with
  | none => exact .fixed missing
  | some argument => simpa using each argument rfl

theorem HasTemplate.first
    (each : ∀ argument ∈ arguments, HasTemplate (names argument) (text argument))
    : HasTemplate ((arguments.take 1).flatMap names) fun table =>
        (arguments.map fun argument => text argument table).head?.getD "" := by
  simp only [List.take_one, List.head?_map]
  exact .orMissing "" fun argument given => each argument (List.mem_of_head? given)

/-- The value of a case is written before its condition. -/
theorem HasTemplate.caseBlock
    (each : ∀ argument ∈ arguments, HasTemplate (names argument) (text argument))
    : HasTemplate ((arguments.take 3).flatMap names) fun table =>
        Latex.caseBlock (arguments.map fun argument => text argument table) := by
  have given (place : Nat) : ∀ argument ∈ arguments[place]?,
      HasTemplate (names argument) (text argument) :=
    fun argument found => each argument (List.mem_of_getElem? found)
  have value := orMissing "?" (given 1)
  have condition := orMissing "?" (given 0)
  have otherwise := orMissing "" fun argument found =>
    (given 2 argument found).between " \\\\ " (" & " ++ textCommand "otherwise")
  have line := value.joined " & " (condition.after (textCommand "if " ++ " "))
  have lines := line.append otherwise
  refine ((lines.between "\\begin\x7bcases\x7d " " \\end\x7bcases\x7d").congr ?_).perm ?_
  · intro table
    cases third : arguments[2]? <;>
      simp [Latex.caseBlock, third, caseLine, String.intercalate_cons_cons, String.append_assoc]
  · rw [← List.flatMap_append, ← List.flatMap_append]
    refine List.Perm.flatMap_right names ?_
    rcases arguments with _ | ⟨condition, _ | ⟨value, _ | ⟨otherwise, rest⟩⟩⟩
    · exact .refl _
    · exact .refl _
    · exact .swap ..
    · exact .swap ..

theorem HasTemplate.styled (style : CallStyle)
    (each : ∀ argument ∈ arguments, HasTemplate (names argument) (text argument))
    : HasTemplate ((style.shownArguments arguments).flatMap names) fun table =>
        style.apply (arguments.map fun argument => text argument table) := by
  have first := HasTemplate.first each
  cases style with
  | radical => exact first.braced.after "\\sqrt"
  | overline =>
      have inner : HasTemplate (arguments.flatMap names) fun table =>
          if arguments.isEmpty then "x"
          else ", ".intercalate (arguments.map fun argument => text argument table) := by
        cases arguments with
        | nil => exact .fixed "x"
        | cons head rest => exact .intercalate ", " each
      exact (inner.braced.after "\\overline").congr fun _ => by
        simp [CallStyle.apply]
  | absoluteValue => exact first.between "\\left| " " \\right|"
  | trigonometric command =>
      exact first.between (command ++ "\\left(") "\\right)"
  | conditional => exact .caseBlock each
  | passThrough => exact first

theorem HasTemplate.call (name : String)
    (each : ∀ argument ∈ arguments, HasTemplate (names argument) (text argument))
    : HasTemplate ((shownArguments name arguments).flatMap names) fun table =>
        Latex.call name (arguments.map fun argument => text argument table) := by
  rw [shownArguments]
  simp only [Latex.call]
  cases callStyle? name with
  | none => exact (HasTemplate.intercalate ", " each).between _ ")"
  | some style => exact .styled style each

end Arguments

theorem HasTemplate.binary {names others : List String} {left right : RenameTable → String}
    (op : BinaryOperator) (hasLeft : HasTemplate names left) (hasRight : HasTemplate others right)
    : HasTemplate (names ++ others) fun table => Latex.binary op (left table) (right table) := by
  have spaced (sign : String) : HasTemplate (names ++ others) fun table =>
      Latex.spaced (left table) sign (right table) := by
    have whole := ((hasLeft.append (fixed " ")).append (fixed sign)).joined " " hasRight
    rwa [List.append_nil, List.append_nil] at whole
  cases op with
  | divide => exact (hasLeft.braced.after "\\frac").append hasRight.braced
  | power => exact hasLeft.braced.joined "^" hasRight.braced
  | _ => exact spaced _

end Latex

-----------------------------------------------------------------------------------------
-- Expressions
-----------------------------------------------------------------------------------------

namespace Expr

mutual

/-- The references in the notation of an expression: those in arguments that a call drops are
left out.
-/
def shownReferences : Expr → List String
  | .number _ => []
  | .reference name => [name]
  | .binary _ left right => left.shownReferences ++ right.shownReferences
  | .negate operand => operand.shownReferences
  | .call name arguments =>
      (Latex.shownArguments name (shownReferencesEach arguments)).flatten
  | .group inner => inner.shownReferences

/-- The references in the notation of each of several expressions. -/
def shownReferencesEach : List Expr → List (List String)
  | [] => []
  | first :: rest => first.shownReferences :: shownReferencesEach rest

end

theorem shownReferencesEach_eq_map (es : List Expr)
    : shownReferencesEach es = es.map shownReferences := by
  induction es with
  | nil => rfl
  | cons first rest ih => rw [shownReferencesEach, ih, List.map_cons]

theorem shownReferences_call (name : String) (arguments : List Expr)
    : (Expr.call name arguments).shownReferences
        = (Latex.shownArguments name arguments).flatMap shownReferences := by
  rw [shownReferences, shownReferencesEach_eq_map, Latex.shownArguments_map, List.flatMap_def]

/-- Every reference is shown at most as often as it is made. -/
theorem shownReferences_sublist (e : Expr) : e.shownReferences.Sublist e.references := by
  induction e using inductionOn with
  | number text => exact .refl _
  | reference name => exact .refl _
  | binary op left right leftIh rightIh => exact leftIh.append rightIh
  | negate operand ih => exact ih
  | call name arguments ih =>
      rw [shownReferences_call, references, referencesAll_eq_flatMap]
      exact ((Latex.shownArguments_sublist name arguments).flatMap shownReferences).trans
        (.flatMap_right arguments ih)
  | group inner ih => exact ih

/-- Where no call drops an argument, every reference is shown. -/
theorem shownReferences_of_keepsArguments {e : Expr} (keeps : e.KeepsArguments)
    : e.shownReferences = e.references := by
  induction e using inductionOn with
  | number text => rfl
  | reference name => rfl
  | binary op left right leftIh rightIh =>
      rw [shownReferences, leftIh keeps.1, rightIh keeps.2, references]
  | negate operand ih => exact ih keeps
  | call name arguments ih =>
      obtain ⟨kept, parts⟩ := keeps
      rw [shownReferences_call, Latex.shownArguments_of_keeps kept, references,
        referencesAll_eq_flatMap]
      exact List.flatMap_congr fun argument member =>
        ih argument member (allKeepArguments_iff.mp parts argument member)
  | group inner ih => exact ih keeps

/-- An expression has one template for all tables, with a hole for each reference that is shown. -/
theorem hasTemplate_toLatex (options : RenderOptions) (e : Expr)
    : Latex.HasTemplate e.shownReferences fun table => e.toLatex table options := by
  induction e using inductionOn with
  | number text => exact .fixed _
  | reference name => exact .resolve name
  | binary op left right leftIh rightIh => exact .binary op leftIh rightIh
  | negate operand ih => exact ih.after "-"
  | call name arguments ih =>
      rw [shownReferences_call]
      refine (Latex.HasTemplate.call name ih).congr fun table => ?_
      rw [toLatex, toLatexAll_eq_map]
  | group inner ih => exact ih.between _ _

/-- Renaming is one simultaneous substitution, and verbatim. An expression has one template, with
a hole for each reference that is shown and none that is not made, and its notation under any
table is that template with what the table shows for the names in the holes. So tables that show
the same for its references give it the same notation.
-/
theorem toLatex_fills_template (e : Expr) (options : RenderOptions)
    : ∃ template,
        (Latex.holes template).Perm e.shownReferences
        ∧ (Latex.holes template).Subperm e.references
        ∧ (∀ table, e.toLatex table options = Latex.fill table.resolve template)
        ∧ ∀ table other : RenameTable,
            (∀ name ∈ e.references, table.resolve name = other.resolve name)
            → e.toLatex table options = e.toLatex other options := by
  obtain ⟨template, bears, filled⟩ := e.hasTemplate_toLatex options
  have made : (Latex.holes template).Subperm e.references :=
    bears.subperm.trans e.shownReferences_sublist.subperm
  refine ⟨template, bears, made, filled, fun table other same => ?_⟩
  calc e.toLatex table options
      = Latex.fill table.resolve template := filled table
    _ = Latex.fill other.resolve template :=
        Latex.fill_congr fun name hole => same name (made.subset hole)
    _ = e.toLatex other options := (filled other).symm

/-- In `if(a1; b1)^round(1.5+c1; b1)` the value is shown before the condition and the second
argument of the rounding is not shown. A symbol that is itself the name of another cell, or that
looks like a number, stays as it is; an empty one and one of another cell make no difference.
-/
theorem toLatex_fills_template_reordered
    : let e : Expr :=
        .binary .power (.call "IF" [.reference "A1", .reference "B1"])
          (.call "ROUND" [.binary .add (.number "1.5") (.reference "C1"), .reference "B1"])
      let table : RenameTable := .ofList [("a1", "B1"), ("b1", "2.5"), ("C1", "")]
      let other : RenameTable := .ofList [("Z9", "z"), ("B1", "2.5"), ("A1", "B1")]
      (∃ template, (Latex.holes template).Perm ["B1", "A1", "C1"]
        ∧ ∀ table, e.toLatex table {} = Latex.fill table.resolve template)
      ∧ (∀ name ∈ e.references, table.resolve name = other.resolve name)
      ∧ e.toLatex table {} = e.toLatex other {}
      ∧ e.toLatex table {}
          = "\x7b\\begin\x7bcases\x7d 2.5 & \\text\x7bif \x7d B1 \\end\x7bcases\x7d\x7d^\x7b1,5 + C1\x7d"
    := by
  intro e table other
  obtain ⟨template, bears, _, filled, agree⟩ := e.toLatex_fills_template {}
  have shown : e.shownReferences.Perm ["B1", "A1", "C1"] := by
    decide +kernel
  have same : ∀ name ∈ e.references, table.resolve name = other.resolve name := by
    decide +kernel
  exact ⟨⟨template, bears.trans shown, filled⟩, same, agree table other same, by decide +kernel⟩

end Expr

end FormulaLatex
