import Std.Data.String.ToNat
import Mathlib.Data.List.Basic
import FormulaLatex.Convert
import FormulaLatex.Proofs.Latex.Escaping
import FormulaLatex.Proofs.Latex.Unambiguous
import FormulaLatex.Proofs.RenameTable.Lookup

/-! Errors in place of notation. The notation of an error can be told from that of every
expression by what it begins with, as long as no symbol of the table begins in this way, and the
error can be read off it.
-/

namespace FormulaLatex

open Text Latex

-----------------------------------------------------------------------------------------
-- Reports
-----------------------------------------------------------------------------------------

/-- The text after a heading, unless there is another one. -/
def textAfter? (heading : String) (text : List Char) : Option (List Char) :=
  heading.toList.isPrefixOf? text

theorem textAfter?_append (heading : String) (text : List Char)
    : textAfter? heading (heading.toList ++ text) = some text :=
  List.isPrefixOf?_eq_some_iff_append_eq.mpr rfl

theorem textAfter?_eq_none {heading : String} {text : List Char}
    (other : ¬ heading.toList <+: text)
    : textAfter? heading text = none := by
  cases found : textAfter? heading text with
  | none => rfl
  | some rest => exact absurd ⟨rest, List.isPrefixOf?_eq_some_iff_append_eq.mp found⟩ other

namespace SyntaxError

/-- The syntax error with a given report. -/
def ofMessage? (message : String) : Option SyntaxError :=
  if message = "Unexpected end of formula" then some .unexpectedEnd
  else if message = "Expected ')' to close '('" then some .unclosedGroup
  else
    let text := message.toList
    (textAfter? "Unexpected token: " text).map (.unexpectedToken ∘ String.ofList)
      <|> (textAfter? "Expected '(' after " text).map (.missingOpening ∘ String.ofList)
      <|> (textAfter? "Expected ')' after arguments of " text).map
        (.unclosedCall ∘ String.ofList)
      <|> do
        let rest ← textAfter? "Maximum nesting depth of " text
        let digits := rest.take (rest.length - " exceeded".toList.length)
        return .tooDeep (← (String.ofList digits).toNat?)

/-- A report tells the error. -/
theorem ofMessage?_message (error : SyntaxError)
    : ofMessage? error.message = some error := by
  cases error with
  | unexpectedEnd => exact if_pos rfl
  | unclosedGroup =>
      have other : "Expected ')' to close '('" ≠ "Unexpected end of formula" := by decide
      exact (if_neg other).trans (if_pos rfl)
  | unexpectedToken text =>
      change ofMessage? ("Unexpected token: " ++ text) = _
      simp [ofMessage?, textAfter?, List.isPrefixOf?, ← String.toList_inj]
  | missingOpening function =>
      change ofMessage? ("Expected '(' after " ++ function) = _
      simp [ofMessage?, textAfter?, List.isPrefixOf?, ← String.toList_inj]
  | unclosedCall function =>
      change ofMessage? ("Expected ')' after arguments of " ++ function) = _
      simp [ofMessage?, textAfter?, List.isPrefixOf?, ← String.toList_inj]
  | tooDeep limit =>
      have number : (String.ofList (Nat.toDigits 10 limit)).toNat? = some limit := by
        rw [← Nat.toList_repr, String.ofList_toList, Nat.toNat?_repr]
      change ofMessage? ("Maximum nesting depth of " ++ Nat.repr limit ++ " exceeded") = _
      simp [ofMessage?, textAfter?, List.isPrefixOf?, ← String.toList_inj, number]

end SyntaxError

-----------------------------------------------------------------------------------------
-- The notation of errors
-----------------------------------------------------------------------------------------

/-- The text that is reported after a heading, if notation begins as such a report. -/
def reported? (heading latex : String) : Option String :=
  (textAfter? ("\\text\x7b" ++ heading) latex.toList).map fun rest =>
    String.ofList (unescape rest.dropLast)

/-- The error with a given notation. -/
def FormulaError.ofLatex? (latex : String) : Option FormulaError :=
  match reported? "Invalid character: " latex with
  | some text => if let [c] := text.toList then some (.invalidCharacter c) else none
  | none => do return .malformed (← SyntaxError.ofMessage? (← reported? "Error: " latex))

/-- Whether notation begins as that of an error does. -/
def BeginsAsError (latex : String) : Prop :=
  "\\text\x7bError: ".toList <+: latex.toList
    ∨ "\\text\x7bInvalid character: ".toList <+: latex.toList

theorem toList_textCommand_append (heading text : String)
    : (textCommand (heading ++ text)).toList
        = ("\\text\x7b" ++ heading).toList ++ (text.toList ++ ['\x7d']) := by
  simp [textCommand, braced]

/-- What is reported can be read back. -/
theorem reported?_textCommand (heading text : String)
    : reported? heading (textCommand (heading ++ escapeText text)) = some text := by
  rw [reported?, toList_textCommand_append, textAfter?_append, Option.map_some,
    List.dropLast_concat, escapeText, String.toList_ofList, unescape_flatMap_escapeChar,
    String.ofList_toList]

theorem reported?_eq_none {heading latex : String}
    (other : ¬ ("\\text\x7b" ++ heading).toList <+: latex.toList)
    : reported? heading latex = none := by
  rw [reported?, textAfter?_eq_none other, Option.map_none]

namespace FormulaError

theorem beginsAsError_toLatex (error : FormulaError) : BeginsAsError error.toLatex := by
  cases error with
  | invalidCharacter c =>
      right
      rw [toLatex, Latex.invalidCharacter, toList_textCommand_append]
      exact List.prefix_append _ _
  | malformed cause =>
      left
      rw [toLatex, syntaxError, toList_textCommand_append]
      exact List.prefix_append _ _

/-- An error can be read off its notation. -/
theorem ofLatex?_toLatex (error : FormulaError) : ofLatex? error.toLatex = some error := by
  cases error with
  | invalidCharacter c =>
      rw [ofLatex?, toLatex, Latex.invalidCharacter, reported?_textCommand]
      simp
  | malformed cause =>
      have noCharacter : reported? "Invalid character: " (syntaxError cause.message) = none := by
        refine reported?_eq_none ?_
        rw [syntaxError, toList_textCommand_append]
        simp
      rw [ofLatex?, toLatex, noCharacter, syntaxError, reported?_textCommand]
      simp [SyntaxError.ofMessage?_message]

theorem ofLatex?_eq_none {latex : String} (other : ¬ BeginsAsError latex)
    : ofLatex? latex = none := by
  have noCharacter : reported? "Invalid character: " latex = none :=
    reported?_eq_none fun begins => other (.inr begins)
  have noReport : reported? "Error: " latex = none :=
    reported?_eq_none fun begins => other (.inl begins)
  rw [ofLatex?, noCharacter, noReport]
  rfl

end FormulaError

-----------------------------------------------------------------------------------------
-- The notation of expressions
-----------------------------------------------------------------------------------------

namespace Latex

/-- The first two characters of each report. There is no blank among them, so no divider completes
them, and the second is not in upper case, so they are in the name of no function.
-/
def errorInitials : List String := ["Er", "In"]

/-- Whether notation does not even begin with the first two characters of a report. -/
def Unmarked (latex : String) : Prop :=
  ∀ initial ∈ errorInitials, ¬ ("\\text\x7b" ++ initial).toList <+: latex.toList

variable {latex left : String}

theorem Unmarked.not_beginsAsError (unmarked : Unmarked latex) : ¬ BeginsAsError latex := by
  rintro (begins | begins)
  · refine unmarked "Er" (by simp [errorInitials]) (.trans ?_ begins)
    decide
  · refine unmarked "In" (by simp [errorInitials]) (.trans ?_ begins)
    decide

/-- What a form of notation begins with, unless it is one of its parts or a name. -/
def beginnings : List String :=
  ["-", "\x7b", "\\frac", "\\left(", "\\left| ", "\\sqrt", "\\overline", "\\sin", "\\cos",
   "\\tan", "\\begin\x7bcases\x7d "]

theorem beginnings_apart
    : ∀ beginning ∈ beginnings, ∀ initial ∈ errorInitials,
      ¬ ("\\text\x7b" ++ initial).toList <+: beginning.toList
        ∧ ¬ beginning.toList <+: ("\\text\x7b" ++ initial).toList := by
  decide +kernel

theorem unmarked_of_beginning {beginning : String} (known : beginning ∈ beginnings)
    (rest : String)
    : Unmarked (beginning ++ rest) := by
  intro initial isInitial begins
  obtain ⟨notBefore, notAfter⟩ := beginnings_apart beginning known initial isInitial
  rw [String.toList_append (s := beginning)] at begins
  rcases List.prefix_or_prefix_of_prefix begins (List.prefix_append _ _) with before | after
  · exact notBefore before
  · exact notAfter after

theorem unmarked_empty : Unmarked "" := by
  intro initial _ begins
  simp at begins

theorem unmarked_of_no_backslash (noBackslash : '\\' ∉ latex.toList) : Unmarked latex := by
  intro initial _ begins
  refine noBackslash (begins.subset ?_)
  simp

/-- A symbol that does not begin as upright text begins as nothing else. -/
theorem unmarked_of_no_text (noText : ¬ "\\text\x7b".toList <+: latex.toList)
    : Unmarked latex := by
  intro initial _ begins
  refine noText (.trans ?_ begins)
  rw [String.toList_append]
  exact List.prefix_append _ _

/-- A character that is not in a beginning ends what it can begin. -/
theorem prefix_of_prefix_append {beginning front rest : List Char} {c : Char}
    (absent : c ∉ beginning) (begins : beginning <+: front ++ c :: rest)
    : beginning <+: front := by
  rcases List.prefix_or_prefix_of_prefix begins (List.prefix_append front (c :: rest))
    with before | ⟨more, rfl⟩
  · exact before
  · rw [List.prefix_append_right_inj] at begins
    cases more with
    | nil => simp
    | cons d more =>
        obtain rfl := (List.cons_prefix_cons.mp begins).1
        simp at absent

theorem Unmarked.blank (unmarked : Unmarked left) (rest : String)
    : Unmarked (left ++ " " ++ rest) := by
  intro initial isInitial begins
  have noBlank : ∀ initial ∈ errorInitials, ' ' ∉ ("\\text\x7b" ++ initial).toList := by
    decide +kernel
  have apart : (left ++ " " ++ rest).toList = left.toList ++ ' ' :: rest.toList := by simp
  rw [apart] at begins
  exact unmarked initial isInitial (prefix_of_prefix_append (noBlank initial isInitial) begins)

theorem unmarked_binary (op : BinaryOperator) (unmarked : Unmarked left) (right : String)
    : Unmarked (binary op left right) := by
  have spaced : ∀ sign, Unmarked (spaced left sign right) := by
    intro sign
    rw [Latex.spaced, String.append_assoc, String.append_assoc]
    exact unmarked.blank _
  cases op with
  | divide =>
      rw [binary, String.append_assoc]
      exact unmarked_of_beginning (by simp [beginnings]) _
  | power =>
      rw [binary, braced, String.append_assoc, String.append_assoc, String.append_assoc]
      exact unmarked_of_beginning (by simp [beginnings]) _
  | _ => exact spaced _

theorem eq_of_mem_escapeText {name : String} (named : PlainName name) {c : Char}
    (member : c ∈ (escapeText name).toList)
    : c = '\\' ∨ upperCaseChar c = [c] := by
  rw [escapeText, String.toList_ofList] at member
  obtain ⟨d, inName, escaped⟩ := List.mem_flatMap.mp member
  have upper : upperCaseChar d = [d] := by
    rw [← named.upper, upperCase, String.toList_ofList] at inName
    obtain ⟨_, _, becomes⟩ := List.mem_flatMap.mp inName
    exact upperCaseChar_of_mem becomes
  rw [escapeChar_of_isPlain (named.plain d inName)] at escaped
  split at escaped
  · rename_i underscore
    rcases List.mem_pair.mp escaped with rfl | rfl
    · exact .inl rfl
    · exact .inr (underscore ▸ upper)
  · obtain rfl := List.mem_singleton.mp escaped
    exact .inr upper

/-- The letters that begin a report and that no name in upper case has. -/
theorem upperCaseChar_ne_self : ∀ small ∈ ['r', 'n'], upperCaseChar small ≠ [small] := by
  have upper : upperCaseChar 'r' = ['R'] ∧ upperCaseChar 'n' = ['N'] := by
    decide +kernel
  simp [upper]

theorem small_of_mem_errorInitials : ∀ initial ∈ errorInitials,
    '\x7d' ∉ initial.toList ∧ ∃ small ∈ ['r', 'n'], small ∈ initial.toList := by
  intro initial isInitial
  rcases List.mem_pair.mp isInitial with rfl | rfl
  · exact ⟨by decide, 'r', by decide, by decide⟩
  · exact ⟨by decide, 'n', by decide, by decide⟩

/-- A name in upper case does not begin as an error does. -/
theorem unmarked_namedCall {name : String} (named : PlainName name) (arguments : List String)
    : Unmarked (namedCall name arguments) := by
  intro initial isInitial begins
  obtain ⟨noClosing, small, isSmall, inInitial⟩ := small_of_mem_errorInitials initial isInitial
  have call : (namedCall name arguments).toList
      = "\\text\x7b".toList ++ ((escapeText name).toList ++ '\x7d' ::
          ("(" ++ ", ".intercalate arguments ++ ")").toList) := by
    simp [namedCall, textCommand, braced]
  rw [call, String.toList_append, List.prefix_append_right_inj] at begins
  have inName := (prefix_of_prefix_append noClosing begins).subset inInitial
  rcases eq_of_mem_escapeText named inName with rfl | upper
  · simp at isSmall
  · exact upperCaseChar_ne_self small isSmall upper

theorem unmarked_apply {name : String} {style : CallStyle}
    (styled : callStyle? name = some style) {arguments : List String}
    (unmarked : ∀ argument ∈ arguments, Unmarked argument)
    : Unmarked (style.apply arguments) := by
  cases style with
  | radical => exact unmarked_of_beginning (by simp [beginnings]) _
  | overline => exact unmarked_of_beginning (by simp [beginnings]) _
  | absoluteValue =>
      rw [CallStyle.apply, String.append_assoc]
      exact unmarked_of_beginning (by simp [beginnings]) _
  | trigonometric command =>
      have known : command ∈ beginnings := by
        rcases command_of_trigonometric (mem_styles styled) with rfl | rfl | rfl <;>
          simp [beginnings]
      rw [CallStyle.apply, String.append_assoc, String.append_assoc]
      exact unmarked_of_beginning known _
  | conditional =>
      rw [CallStyle.apply, caseBlock, String.append_assoc]
      exact unmarked_of_beginning (by simp [beginnings]) _
  | passThrough =>
      cases arguments with
      | nil => exact unmarked_empty
      | cons argument rest => exact unmarked argument List.mem_cons_self

theorem unmarked_number {separators : DecimalSeparators} {text : String}
    (number : Lexeme.IsNumber separators text.toList) (style : DecimalStyle)
    : Unmarked (Latex.number style text) := by
  refine unmarked_of_no_backslash fun member => ?_
  rcases (isNumber_number number style).digit_or_separator _ member with digit | accepted
  · cases digit
  · rcases Lexeme.point_or_comma_of_accepts accepted with same | same <;> cases same

end Latex

theorem PlainName.no_backslash {name : String} (named : PlainName name)
    : '\\' ∉ name.toList := by
  intro member
  have plain := named.plain _ member
  rw [backslash_not_isPlain] at plain
  cases plain

variable {renames : RenameTable}

theorem RenameTable.unmarked_resolve
    (symbols : ∀ entry ∈ renames.toList, ¬ "\\text\x7b".toList <+: entry.2.toList)
    {name : String} (named : PlainName name)
    : Unmarked (renames.resolve name) := by
  rcases renames.resolve_eq_or_mem name with itself | symbol
  · rw [itself, canonical, named.upper]
    exact unmarked_of_no_backslash named.no_backslash
  · exact unmarked_of_no_text (symbols _ symbol)

namespace Expr

/-- The notation of an expression does not begin as that of an error. -/
theorem unmarked_toLatex
    (symbols : ∀ entry ∈ renames.toList, ¬ "\\text\x7b".toList <+: entry.2.toList)
    (render : RenderOptions) {separators : DecimalSeparators} {e : Expr}
    (lexical : ∀ terminal ∈ e.terminals, terminal.Lexical separators)
    : Unmarked (e.toLatex renames render) := by
  induction e using inductionOn with
  | number text =>
      have number := (lexical ⟨.number, text⟩ (List.mem_singleton.mpr rfl)).number rfl
      exact unmarked_number number render.decimalStyle
  | reference name =>
      have named := (lexical ⟨.reference, name⟩ (List.mem_singleton.mpr rfl)).name (.inl rfl)
      exact RenameTable.unmarked_resolve symbols named
  | binary op left right leftIh _ =>
      exact unmarked_binary op (leftIh (forall_terminals_binary lexical).1) _
  | negate operand _ => exact unmarked_of_beginning (by simp [beginnings]) _
  | call name arguments ih =>
      obtain ⟨nameLexical, argumentsLexical⟩ := forall_terminals_call lexical
      rw [toLatex, toLatexAll_eq_map, Latex.call]
      cases styled : callStyle? name with
      | none => exact unmarked_namedCall (nameLexical.name (.inr rfl)) _
      | some style =>
          refine unmarked_apply styled fun text member => ?_
          obtain ⟨argument, inArguments, rfl⟩ := List.mem_map.mp member
          exact ih argument inArguments (argumentsLexical argument inArguments)
  | group inner _ =>
      rw [toLatex, parenthesized, String.append_assoc]
      exact unmarked_of_beginning (by simp [beginnings]) _

end Expr

-----------------------------------------------------------------------------------------
-- Conversion
-----------------------------------------------------------------------------------------

/-- What precise conversion gives for an expression does not begin as an error does. -/
theorem not_beginsAsError_of_tryConvert {formula latex : String} {options : ConvertOptions}
    (precise : options.mode = .precise)
    (symbols : ∀ entry ∈ renames.toList, ¬ "\\text\x7b".toList <+: entry.2.toList)
    (converted : tryConvert formula renames options = .ok latex)
    : ¬ BeginsAsError latex := by
  refine Unmarked.not_beginsAsError ?_
  rw [tryConvert, precise] at converted
  dsimp only at converted
  split at converted
  · obtain rfl := Except.ok.inj converted
    exact unmarked_empty
  · rw [Expr.ofKnownTokens] at converted
    cases unknown : Token.firstUnknown? (tokenize formula options.tokenizer) with
    | some c =>
        rw [unknown] at converted
        cases converted
    | none =>
        rw [unknown] at converted
        cases read : Expr.ofTokens (tokenize formula options.tokenizer) options.reader with
        | error cause =>
            rw [read] at converted
            cases converted
        | ok e =>
            rw [read] at converted
            obtain rfl := Except.ok.inj converted
            exact e.unmarked_toLatex symbols options.render fun _ member =>
              Expr.lexical_of_mem_terminals read member

/-- Errors can be told from notation and read back. Under a table none of whose symbols begins as
upright text, precise conversion gives what begins as an error exactly when there is one, and the
error can be read off it: no two errors have the same notation.
-/
theorem convert_error_notation (formula : String) {renames : RenameTable}
    {options : ConvertOptions} (precise : options.mode = .precise)
    (symbols : ∀ entry ∈ renames.toList, ¬ "\\text\x7b".toList <+: entry.2.toList)
    : (BeginsAsError (convert formula renames options)
        ↔ ∃ error, tryConvert formula renames options = .error error)
      ∧ (∀ error,
        FormulaError.ofLatex? (convert formula renames options) = some error
          ↔ tryConvert formula renames options = .error error)
      ∧ Function.Injective FormulaError.toLatex := by
  refine and_assoc.mp ⟨?_, fun error other same => ?_⟩
  · rw [convert]
    cases converted : tryConvert formula renames options with
    | ok latex =>
        have noError := not_beginsAsError_of_tryConvert precise symbols converted
        simp [noError, FormulaError.ofLatex?_eq_none noError]
    | error error =>
        simp [error.beginsAsError_toLatex, error.ofLatex?_toLatex]
  · have read := error.ofLatex?_toLatex
    rw [same, other.ofLatex?_toLatex] at read
    exact (Option.some.inj read).symm

/-- The character without a meaning is one that is escaped. -/
theorem convert_error_notation_backslash
    : let renames : RenameTable := .ofList [("a1", "\\alpha")]
      (∀ entry ∈ renames.toList, ¬ "\\text\x7b".toList <+: entry.2.toList)
      ∧ convert "=A1\\2" renames
        = "\\text\x7bInvalid character: \\textbackslash\x7b\x7d\x7d"
      ∧ BeginsAsError (convert "=A1\\2" renames)
      ∧ FormulaError.ofLatex? (convert "=A1\\2" renames) = some (.invalidCharacter '\\') := by
  intro renames
  have symbols : ∀ entry ∈ renames.toList, ¬ "\\text\x7b".toList <+: entry.2.toList := by
    decide +kernel
  have failed : tryConvert "=A1\\2" renames = .error (.invalidCharacter '\\') := by
    decide +kernel
  have precise : ({} : ConvertOptions).mode = .precise := rfl
  obtain ⟨begins, read, _⟩ := convert_error_notation "=A1\\2" precise symbols
  exact ⟨symbols, by decide +kernel, begins.mpr ⟨_, failed⟩, (read _).mpr failed⟩

end FormulaLatex
