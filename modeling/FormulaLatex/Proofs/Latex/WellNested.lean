import FormulaLatex.Convert
import FormulaLatex.Proofs.Latex.Nesting
import FormulaLatex.Proofs.Latex.Unambiguous
import FormulaLatex.Proofs.RenameTable.Lookup

/-! Notation is well nested. Names and numbers have no character that LaTeX reads in a way of its
own, other text is escaped, and whatever a form of notation opens it closes again. So conversion
gives well-nested text if the symbols that stand for references are well nested.
-/

namespace FormulaLatex

namespace Latex

open Text

-----------------------------------------------------------------------------------------
-- Plain and escaped text
-----------------------------------------------------------------------------------------

/-- Whether a character neither begins a control sequence nor opens or closes anything. -/
def isInert (c : Char) : Bool :=
  c != '\\' && c != '\x7b' && c != '\x7d'

theorem isInert_of_isPlain {c : Char} (plain : isPlain c = true) : isInert c = true := by
  have special := ne_of_isPlain plain
  simp only [List.forall_mem_cons] at special
  simp [isInert, special]

theorem WellNested.empty : WellNested "" := by
  decide +kernel

theorem Symbol.nest?_of_isInert {c : Char} (inert : isInert c = true) (pending : List Symbol)
    : nest? pending (.character c) = some pending := by
  simp only [isInert, Bool.and_eq_true, bne_iff_ne] at inert
  obtain ⟨⟨_, opening⟩, closing⟩ := inert
  have closes : ¬ '\x7d' = c := Ne.symm closing
  have opens : (character c == character '\x7b') = false :=
    beq_eq_false_iff_ne.mpr fun same => opening (character.inj same)
  have noControl : ∀ name, (character c == control name) = false :=
    fun name => beq_eq_false_iff_ne.mpr (by simp)
  simp [nest?, pairs, List.lookup_cons, opens, noControl, closes]

/-- An inert character can be put before a text. -/
theorem WellNested.cons {c : Char} (inert : isInert c = true) {rest : List Char}
    (nested : WellNested (String.ofList rest))
    : WellNested (String.ofList (c :: rest)) := by
  obtain ⟨symbols, read, nests⟩ := pendingAfter?_eq_some_iff.mp nested
  rw [String.toList_ofList] at read
  have noBackslash : c ≠ '\\' := by
    rintro rfl
    cases inert
  refine pendingAfter?_eq_some_iff.mpr ⟨.character c :: symbols, ?_, ?_⟩
  · rw [String.toList_ofList, Symbol.ofText?_character noBackslash, read, Option.map_some]
  · rw [List.foldlM_cons, Symbol.nest?_of_isInert inert]
    exact nests

theorem wellNested_of_isInert {text : String} (inert : ∀ c ∈ text.toList, isInert c = true)
    : WellNested text := by
  rw [← String.ofList_toList (s := text)]
  generalize text.toList = chars at inert
  induction chars with
  | nil => exact .empty
  | cons c rest ih =>
      obtain ⟨first, inert⟩ := List.forall_mem_cons.mp inert
      exact (ih inert).cons first

/-- What is written for a character is inert, or it is well nested and ends with no letter. -/
theorem escapeChar_cases (c : Char)
    : escapeChar c = [c] ∧ isInert c = true
      ∨ WellNested (String.ofList (escapeChar c))
        ∧ (escapeChar c).getLast?.any Char.isAlpha = false := by
  by_cases special : c ∈ ['\\', '^', '~', '#', '$', '%', '&', '_', '\x7b', '\x7d']
  · right
    revert c
    simp only [List.forall_mem_cons, List.not_mem_nil, false_implies, implies_true]
    decide +kernel
  · left
    simp only [List.mem_cons, not_or] at special
    simp [escapeChar, isInert, special]

theorem wellNested_escapeText (text : String) : WellNested (escapeText text) := by
  rw [escapeText]
  induction text.toList with
  | nil => exact .empty
  | cons c rest ih =>
      rw [List.flatMap_cons]
      rcases escapeChar_cases c with ⟨same, inert⟩ | ⟨nested, ends⟩
      · rw [same]
        exact ih.cons inert
      · rw [String.ofList_append]
        exact nested.append ih (.inl (by rwa [String.toList_ofList]))

-----------------------------------------------------------------------------------------
-- Forms of notation
-----------------------------------------------------------------------------------------

/-- What the notation has between two of its parts. -/
def dividers : List String :=
  [" + ", " - ", " = ", " < ", " > ", " \\cdot ", " \\leq ", " \\geq ", " \\neq ", "^", "(", " ",
   ", ", " & ", " \\\\ "]

/-- What the notation has around one of its parts. -/
def brackets : List (String × String) :=
  [("\x7b", "\x7d"), ("\\left(", "\\right)"), ("\\left| ", " \\right|"),
   ("\\begin\x7bcases\x7d ", " \\end\x7bcases\x7d")]

/-- What the notation has that is complete by itself. -/
def fragments : List String :=
  ["-", ")", "?", "x", "if ", "otherwise", "Invalid character: ", "Error: ", "\\text", "\\frac",
   "\\sqrt", "\\overline", "\\sin", "\\cos", "\\tan"]

theorem divides_of_mem : ∀ mark ∈ dividers, Divides mark := by
  decide +kernel

theorem encloses_of_mem : ∀ pair ∈ brackets, Encloses pair.1 pair.2 := by
  decide +kernel

theorem wellNested_of_mem : ∀ text ∈ fragments, WellNested text := by
  decide +kernel

theorem wellNested_intercalate {mark : String} (divides : Divides mark) {texts : List String}
    (nested : ∀ text ∈ texts, WellNested text)
    : WellNested (mark.intercalate texts) := by
  induction texts with
  | nil => exact WellNested.empty
  | cons first rest ih =>
      obtain ⟨firstNested, restNested⟩ := List.forall_mem_cons.mp nested
      cases rest with
      | nil => exact firstNested
      | cons second rest =>
          rw [String.intercalate_cons_cons]
          exact firstNested.divided divides (ih restNested)

variable {left right inner text : String}

theorem WellNested.braced (nested : WellNested inner) : WellNested (braced inner) :=
  .enclosed (encloses_of_mem ("\x7b", "\x7d") (by simp [brackets])) nested

theorem head?_braced (inner : String)
    : (Latex.braced inner).toList.head?.any Char.isAlpha = false := by
  have begins : (Latex.braced inner).toList = '\x7b' :: (inner.toList ++ ['\x7d']) := by
    simp [Latex.braced]
  rw [begins]
  rfl

/-- A command can be put before braces, whose opening keeps the two apart. -/
theorem WellNested.command {command : String} (known : command ∈ fragments)
    (nested : WellNested inner)
    : WellNested (command ++ Latex.braced inner) :=
  (wellNested_of_mem command known).append nested.braced (.inr (head?_braced inner))

theorem WellNested.textCommand (nested : WellNested text) : WellNested (textCommand text) :=
  command (by simp [fragments]) nested

theorem WellNested.parenthesized (nested : WellNested inner)
    : WellNested (parenthesized inner) :=
  .enclosed (encloses_of_mem ("\\left(", "\\right)") (by simp [brackets])) nested

theorem WellNested.binary (op : BinaryOperator) (leftNested : WellNested left)
    (rightNested : WellNested right)
    : WellNested (binary op left right) := by
  have spaced : ∀ sign, " " ++ sign ++ " " ∈ dividers → WellNested (spaced left sign right) := by
    intro sign known
    have divided := leftNested.divided (divides_of_mem _ known) rightNested
    simpa only [Latex.spaced, String.append_assoc] using divided
  cases op with
  | divide =>
      have numerator : WellNested ("\\frac" ++ Latex.braced left) :=
        command (by simp [fragments]) leftNested
      exact numerator.append rightNested.braced (.inr (head?_braced right))
  | power =>
      exact leftNested.braced.divided (divides_of_mem "^" (by simp [dividers]))
        rightNested.braced
  | _ => exact spaced _ (by decide)

-----------------------------------------------------------------------------------------
-- Calls
-----------------------------------------------------------------------------------------

variable {arguments : List String}

theorem wellNested_namedCall (name : String)
    (nested : ∀ argument ∈ arguments, WellNested argument)
    : WellNested (namedCall name arguments) := by
  have function : WellNested (textCommand (escapeText name)) :=
    (wellNested_escapeText name).textCommand
  have separated : WellNested (", ".intercalate arguments) :=
    wellNested_intercalate (divides_of_mem ", " (by simp [dividers])) nested
  have opened := function.divided (divides_of_mem "(" (by simp [dividers])) separated
  exact opened.append (wellNested_of_mem ")" (by simp [fragments])) (.inr (by decide))

theorem WellNested.caseLine (valueNested : WellNested left) (subjectNested : WellNested right)
    : WellNested (caseLine left right) :=
  valueNested.divided (divides_of_mem " & " (by simp [dividers])) subjectNested

/-- A question mark is as well nested as the argument that it stands for. -/
theorem wellNested_getD (nested : ∀ argument ∈ arguments, WellNested argument) (place : Nat)
    : WellNested (arguments[place]?.getD "?") := by
  cases found : arguments[place]? with
  | none => exact wellNested_of_mem "?" (by simp [fragments])
  | some argument => exact nested argument (List.mem_of_getElem? found)

theorem wellNested_caseBlock (nested : ∀ argument ∈ arguments, WellNested argument)
    : WellNested (caseBlock arguments) := by
  have ifCommand : WellNested (textCommand "if ") :=
    (wellNested_of_mem "if " (by simp [fragments])).textCommand
  have otherwiseCommand : WellNested (textCommand "otherwise") :=
    (wellNested_of_mem "otherwise" (by simp [fragments])).textCommand
  have condition : WellNested (textCommand "if " ++ " " ++ arguments[0]?.getD "?") :=
    ifCommand.divided (divides_of_mem " " (by simp [dividers])) (wellNested_getD nested 0)
  have cases := encloses_of_mem ("\\begin\x7bcases\x7d ", " \\end\x7bcases\x7d")
    (by simp [brackets])
  have lineBreak := divides_of_mem " \\\\ " (by simp [dividers])
  refine .enclosed cases (wellNested_intercalate lineBreak ?_)
  rw [List.forall_mem_cons]
  refine ⟨(wellNested_getD nested 1).caseLine condition, fun line member => ?_⟩
  obtain ⟨otherwise, third, rfl⟩ := List.mem_map.mp member
  have given : WellNested otherwise :=
    nested otherwise (List.mem_of_getElem? (Option.mem_toList.mp third))
  exact given.caseLine otherwiseCommand

theorem wellNested_apply {name : String} {style : CallStyle}
    (styled : callStyle? name = some style)
    (nested : ∀ argument ∈ arguments, WellNested argument)
    : WellNested (style.apply arguments) := by
  have first : WellNested (arguments.head?.getD "") := by
    cases arguments with
    | nil => exact .empty
    | cons argument rest => exact nested argument List.mem_cons_self
  cases style with
  | radical => exact .command (by simp [fragments]) first
  | overline =>
      refine .command (by simp [fragments]) ?_
      split
      · exact wellNested_of_mem "x" (by simp [fragments])
      · exact wellNested_intercalate (divides_of_mem ", " (by simp [dividers])) nested
  | absoluteValue =>
      exact .enclosed (encloses_of_mem ("\\left| ", " \\right|") (by simp [brackets])) first
  | trigonometric command =>
      have known : command ∈ fragments := by
        rcases command_of_trigonometric (mem_styles styled) with rfl | rfl | rfl <;>
          simp [fragments]
      have applied := (wellNested_of_mem command known).append first.parenthesized
        (.inr (by simp [parenthesized]))
      simpa only [CallStyle.apply, parenthesized, String.append_assoc] using applied
  | conditional => exact wellNested_caseBlock nested
  | passThrough => exact first

theorem wellNested_call (name : String) (nested : ∀ argument ∈ arguments, WellNested argument)
    : WellNested (call name arguments) := by
  rw [call]
  cases styled : callStyle? name with
  | none => exact wellNested_namedCall name nested
  | some style => exact wellNested_apply styled nested

end Latex

-----------------------------------------------------------------------------------------
-- Expressions and errors
-----------------------------------------------------------------------------------------

open Latex

theorem Latex.wellNested_number {separators : DecimalSeparators} {text : String}
    (number : Lexeme.IsNumber separators text.toList) (style : DecimalStyle)
    : WellNested (Latex.number style text) := by
  refine wellNested_of_isInert fun c member => ?_
  rcases (isNumber_number number style).digit_or_separator c member with digit | accepted
  · exact isInert_of_isPlain (isPlain_of_isDigit digit)
  · rcases Lexeme.point_or_comma_of_accepts accepted with rfl | rfl <;> rfl

/-- What is shown for a name is a symbol of the table, or the name itself. -/
theorem RenameTable.wellNested_resolve {table : RenameTable}
    (symbols : ∀ entry ∈ table.toList, WellNested entry.2) {name : String}
    (named : PlainName name)
    : WellNested (table.resolve name) := by
  rcases table.resolve_eq_or_mem name with itself | symbol
  · rw [itself, canonical, named.upper]
    exact wellNested_of_isInert fun c member => isInert_of_isPlain (named.plain c member)
  · exact symbols _ symbol

namespace Expr

variable {renames : RenameTable} {separators : DecimalSeparators}

/-- The notation of an expression is well nested. -/
theorem wellNested_toLatex (symbols : ∀ entry ∈ renames.toList, WellNested entry.2)
    (render : RenderOptions) {e : Expr}
    (lexical : ∀ terminal ∈ e.terminals, terminal.Lexical separators)
    : WellNested (e.toLatex renames render) := by
  induction e using inductionOn with
  | number text =>
      have number := (lexical ⟨.number, text⟩ (List.mem_singleton.mpr rfl)).number rfl
      exact wellNested_number number render.decimalStyle
  | reference name =>
      have named := (lexical ⟨.reference, name⟩ (List.mem_singleton.mpr rfl)).name (.inl rfl)
      exact RenameTable.wellNested_resolve symbols named
  | binary op left right leftIh rightIh =>
      obtain ⟨leftLexical, rightLexical⟩ := forall_terminals_binary lexical
      exact (leftIh leftLexical).binary op (rightIh rightLexical)
  | negate operand ih =>
      have minus := wellNested_of_mem "-" (by simp [fragments])
      exact minus.append (ih (forall_terminals_negate lexical)) (.inl (by decide))
  | call name arguments ih =>
      obtain ⟨_, argumentsLexical⟩ := forall_terminals_call lexical
      rw [toLatex, toLatexAll_eq_map]
      refine wellNested_call name fun text member => ?_
      obtain ⟨argument, inArguments, rfl⟩ := List.mem_map.mp member
      exact ih argument inArguments (argumentsLexical argument inArguments)
  | group inner ih => exact (ih (forall_terminals_group lexical)).parenthesized

end Expr

/-- The notation of an error is well nested, whatever the formula is made of. -/
theorem FormulaError.wellNested_toLatex (error : FormulaError) : WellNested error.toLatex := by
  have reported : ∀ heading text : String, heading ∈ fragments →
      heading.toList.getLast?.any Char.isAlpha = false →
      WellNested (textCommand (heading ++ escapeText text)) := by
    intro heading text known ends
    exact ((wellNested_of_mem heading known).append (wellNested_escapeText text)
      (.inl ends)).textCommand
  cases error with
  | invalidCharacter c => exact reported _ _ (by simp [fragments]) (by decide)
  | malformed cause => exact reported _ _ (by simp [fragments]) (by decide)

/-- Precise conversion gives well-nested notation for every formula, be it an expression or an
error, under every table whose symbols are well nested.
-/
theorem convert_wellNested (formula : String) {renames : RenameTable} {options : ConvertOptions}
    (precise : options.mode = .precise)
    (symbols : ∀ entry ∈ renames.toList, WellNested entry.2)
    : WellNested (convert formula renames options) := by
  rw [convert, tryConvert, precise]
  dsimp only
  by_cases noToken : (tokenize formula options.tokenizer).isEmpty = true
  · rw [if_pos noToken]
    exact .empty
  rw [if_neg noToken, Expr.ofKnownTokens]
  cases Token.firstUnknown? (tokenize formula options.tokenizer) with
  | some c => exact FormulaError.wellNested_toLatex (.invalidCharacter c)
  | none =>
      cases read : Expr.ofTokens (tokenize formula options.tokenizer) options.reader with
      | error cause => exact FormulaError.wellNested_toLatex (.malformed cause)
      | ok e =>
          exact e.wellNested_toLatex symbols options.render fun _ member =>
            Expr.lexical_of_mem_terminals read member

/-- A symbol that ends with the letters of a command stands next to other letters. -/
theorem convert_wellNested_symbols
    : let renames : RenameTable :=
        .ofList [("a1", "\\alpha"), ("b", "\\left\\langle x_\x7b1\x7d\\right\\rangle")]
      (∀ entry ∈ renames.toList, WellNested entry.2)
      ∧ WellNested (convert "=IF(A1>1; ROUND(A1)*B_; SQRT(B)/x_1)" renames) := by
  intro renames
  have symbols : ∀ entry ∈ renames.toList, WellNested entry.2 := by
    decide +kernel
  exact ⟨symbols, convert_wellNested _ rfl symbols⟩

end FormulaLatex
