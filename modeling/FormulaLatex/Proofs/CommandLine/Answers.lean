import FormulaLatex.CommandLine.Respond
import FormulaLatex.Proofs.CommandLine.Reading

/-! What the program answers. However a command line is worded, the answer is that of the functions
on formulas under the options and the rename table that its settings stand for.
-/

namespace FormulaLatex.CommandLine

variable {subcommand : Subcommand} {words : List String} {given : List Given} {formula : String}

/-- The rename table of the file that is given, and the empty one if there is none. -/
def fileTable (content : String → Option ByteArray) (given : List Given)
    : Except RenameTable.FileError RenameTable :=
  match renameFileOf? given with
  | none => .ok .empty
  | some path => RenameTable.ofFile (content path)

/-- What is printed for notation. -/
def printed (given : List Given) (latex : String) : String :=
  line (if .flag .equation ∈ given then Latex.wrapEquation latex else latex)

theorem ofSubcommand_of_wording (wording : subcommand.Wording words given (some formula))
    (once : Once given)
    : Request.ofSubcommand subcommand words
        = .ok (.run subcommand formula (.ofGiven given (some formula))) := by
  rw [Request.ofSubcommand, Arguments.ofList_of_wording wording once]
  rfl

/-- A command line is answered on its formula and what its settings mean. -/
theorem respond_of_wording (wording : subcommand.Wording words given (some formula))
    (once : Once given) {name : String} (named : Subcommand.ofName? name = some subcommand)
    (content : String → Option ByteArray)
    : respond content (name :: words)
        = run content subcommand formula (.ofGiven given (some formula)) := by
  have request : Request.ofList (name :: words) = Request.ofSubcommand subcommand words := by
    unfold Subcommand.ofName? at named
    split at named
    all_goals cases named
    all_goals rfl
  rw [respond, request, ofSubcommand_of_wording wording once]

theorem renameTable_ofGiven {content : String → Option ByteArray} {fromFile : RenameTable}
    (loads : fileTable content given = .ok fromFile) (formula? : Option String)
    : renameTable content (.ofGiven given formula?)
        = .ok (fromFile.insertAll (renamesOf given)) := by
  rw [renameTable, Arguments.ofGiven]
  rw [fileTable] at loads
  cases named : renameFileOf? given with
  | none =>
      rw [named] at loads
      obtain rfl := Except.ok.inj loads
      rfl
  | some path =>
      rw [named] at loads
      dsimp only at loads ⊢
      rw [loads]
      rfl

/-- A conversion prints what converts, and the notation of an error unless errors are to be
reported.
-/
theorem convertFormula_ofGiven (table : RenameTable) (formula? : Option String)
    : convertFormula formula table (.ofGiven given formula?)
        = match tryConvert formula table (optionsOf given) with
          | .ok latex => { output := printed given latex }
          | .error error =>
              if .flag .check ∈ given then
                {
                  exitCode := 1
                  report :=
                    line ("Error: Failed to convert '" ++ formula ++ "': " ++ error.message)
                }
              else { output := printed given error.toLatex } := by
  rw [convertFormula, Arguments.ofGiven]
  simp only [decide_eq_true_eq]
  rfl

/-- The command line agrees with the functions on formulas. However its settings are worded and
ordered, a conversion whose table loads prints the notation under their options and that table, and
it reports an error in place of printing it if errors are to be reported. The names and the tokens
that are listed under the same settings on tokens are those of the conversion.
-/
theorem respond_agrees {content : String → Option ByteArray}
    (wording : Subcommand.convert.Wording words given (some formula)) (once : Once given)
    : let options := optionsOf given
      let tokens := tokenize formula options.tokenizer
      (∀ fromFile, fileTable content given = .ok fromFile →
        let table := fromFile.insertAll (renamesOf given)
        (.flag .check ∉ given →
          respond content ("convert" :: words)
            = ⟨0, printed given (convert formula table options), ""⟩)
        ∧ (∀ latex, tryConvert formula table options = .ok latex →
          respond content ("convert" :: words)
            = ⟨0, printed given (convert formula table options), ""⟩)
        ∧ (∀ error, tryConvert formula table options = .error error → .flag .check ∈ given →
          respond content ("convert" :: words)
            = ⟨1, "",
                line ("Error: Failed to convert '" ++ formula ++ "': " ++ error.message)⟩)
        ∧ (options.mode = .precise →
          tryConvert formula table options
            = if tokens.isEmpty then .ok ""
              else
                (Expr.ofKnownTokens tokens options.reader).map
                  (·.toLatex table options.render)))
      ∧ ∀ listWords listGiven, Once listGiven → tokenizerOf listGiven = options.tokenizer →
        (Subcommand.vars.Wording listWords listGiven (some formula) →
          respond content ("vars" :: listWords)
            = ⟨0, lines (detectReferences formula options.tokenizer), ""⟩)
        ∧ (Subcommand.tokens.Wording listWords listGiven (some formula) →
          respond content ("tokens" :: listWords)
            = ⟨0, lines (tokens.map listing),
                if tokens.isEmpty then line "Warning: Formula is empty" else ""⟩) := by
  intro options tokens
  refine ⟨fun fromFile loads => ?_, fun listWords listGiven listOnce sameTokens =>
    ⟨fun listWording => ?_, fun listWording => ?_⟩⟩
  · intro table
    have answer : respond content ("convert" :: words)
        = convertFormula formula table (.ofGiven given (some formula)) := by
      rw [respond_of_wording wording once rfl, run, renameTable_ofGiven loads]
    rw [convertFormula_ofGiven] at answer
    refine ⟨fun unchecked => ?_, fun latex converted => ?_, fun error failed checked => ?_,
      fun precise => ?_⟩
    · rw [answer, convert]
      cases tryConvert formula table options with
      | ok latex => rfl
      | error error => exact if_neg unchecked
    · rw [answer, convert, converted]
    · rw [answer, failed]
      exact if_pos checked
    · rw [tryConvert, precise]
  · rw [respond_of_wording listWording listOnce rfl, ← sameTokens]
    rfl
  · rw [respond_of_wording listWording listOnce rfl]
    change listTokens formula (tokenizerOf listGiven) = _
    rw [sameTokens]
    rfl

theorem eq_ok_of_isOk {ε α : Type} (result : Except ε α) (isOk : result.isOk = true) (default : α)
    : result = .ok (result.toOption.getD default) := by
  cases result with
  | ok value => rfl
  | error error => cases isOk

/-- A flag and a rename in one word, an option of each other wording, and the formula among them.
-/
theorem respond_agrees_equation
    : let content : String → Option ByteArray := fun path =>
        if path = "names.json" then
          some "\x7b\"a1\": \"a\", \"c\": \"\\\\gamma\"\x7d".toUTF8
        else none
      let words : List String :=
        ["-era1=\\alpha", "--rename-file", "names.json", "=A1/B^C", "--check",
          "--decimal=point", "-r", " b =x=1"]
      let given : List Given :=
        [.flag .equation, .rename "a1" "\\alpha", .renameFile "names.json", .flag .check,
          .decimal .point, .rename "b" "x=1"]
      Subcommand.convert.Wording words given (some "=A1/B^C") ∧ Once given
      ∧ ∃ fromFile, fileTable content given = .ok fromFile
        ∧ respond content ("convert" :: words)
          = ⟨0, "\\begin\x7bequation\x7d \\frac\x7b\\alpha\x7d"
              ++ "\x7b\x7bx=1\x7d^\x7b\\gamma\x7d\x7d \\end\x7bequation\x7d\n", ""⟩ := by
  intro content words given
  have alpha : ValueOption.rename.Takes "a1=\\alpha" (.rename "a1" "\\alpha") :=
    @ValueOption.Takes.rename "a1=\\alpha" "a1".toList "\\alpha".toList (by decide) (by decide)
      (by decide)
  have sum : ValueOption.rename.Takes " b =x=1" (.rename "b" "x=1") :=
    @ValueOption.Takes.rename " b =x=1" " b ".toList "x=1".toList (by decide) (by decide)
      (by decide)
  have equation : Subcommand.convert.Has (.flag .equation) := has_convert nofun
  have cluster : Subcommand.convert.Phrase ["-era1=\\alpha"]
      [.flag .equation, .rename "a1" "\\alpha"] :=
    .attached (.cons equation rfl .nil) (has_convert nofun) rfl alpha (by decide) (by decide)
  have file : Subcommand.convert.Phrase ["--rename-file", "names.json"]
      [.renameFile "names.json"] :=
    .apart (.long (has_convert nofun)) (.renameFile (by decide)) (by rintro c rest ⟨⟩)
  have checks : Subcommand.convert.Has (.flag .check) := has_convert nofun
  have check : Subcommand.convert.Phrase ["--check"] [.flag .check] := .flag checks
  have point : Subcommand.convert.Phrase ["--decimal=point"] [.decimal .point] :=
    .equals (.long (has_convert nofun)) (.decimal .point)
  have last : Subcommand.convert.Phrase ["-r", " b =x=1"] [.rename "b" "x=1"] :=
    .apart (.short .nil (has_convert nofun) rfl) sum (by rintro c rest ⟨⟩)
  have wording : Subcommand.convert.Wording words given (some "=A1/B^C") :=
    .settings cluster <| .settings file <| .formula (by rintro c rest ⟨⟩) <|
      .settings check <| .settings point <| .settings last .nil
  have once : Once given := by
    decide
  have loads := eq_ok_of_isOk (fileTable content given) (by decide +kernel) .empty
  have converted := eq_ok_of_isOk
    (tryConvert "=A1/B^C"
      (((fileTable content given).toOption.getD .empty).insertAll (renamesOf given))
      (optionsOf given))
    (by decide +kernel) ""
  obtain ⟨_, answers, _⟩ := (respond_agrees wording once).1 _ loads
  refine ⟨wording, once, _, loads, (answers _ converted).trans ?_⟩
  decide +kernel

end FormulaLatex.CommandLine
