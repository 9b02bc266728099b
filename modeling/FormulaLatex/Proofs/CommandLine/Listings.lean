import FormulaLatex.Proofs.CommandLine.Answers
import FormulaLatex.Proofs.Token.Retyping

/-! Listings lose nothing. No token has an empty text or white space in its text, so the lines of a
listing are those of its entries, and the tab in a line divides the kind of a token from its text.
-/

namespace FormulaLatex

open Text

-----------------------------------------------------------------------------------------
-- What tokens say
-----------------------------------------------------------------------------------------

/-- A text that can be seen as a whole: there is something of it, and no white space. -/
structure Visible (text : String) : Prop where
  nonempty : text ≠ ""
  noBlank : ∀ c ∈ text.toList, isBlank c = false

instance : DecidablePred Visible := fun text =>
  decidable_of_iff (text ≠ "" ∧ (text.toList.all fun c => !isBlank c) = true)
    ⟨fun ⟨nonempty, noBlank⟩ => ⟨nonempty, by simpa using noBlank⟩,
      fun ⟨nonempty, noBlank⟩ => ⟨nonempty, by simpa using noBlank⟩⟩

namespace Lexeme

theorem visible_canonicalName {span : List Char} (isName : IsName span)
    (named : ¬ span.all (fun c => c == '$') = true)
    : Visible (canonicalName span) where
  nonempty := fun empty => named (isEmpty_canonicalName.mp (String.isEmpty_iff.mpr empty))
  noBlank := fun _ member => isBlank_eq_false_of_mem_canonicalName isName member

/-- What the token of a span says can be seen, by the cases of the lexical grammar. -/
theorem visible_spanText {separators : DecimalSeparators} {c : Char} {more : List Char}
    (admitted : Admitted separators (c :: more)) (visible : isBlank c = false)
    : Visible (spanText (c :: more)) := by
  have noBlank := admitted.isBlank_eq_false visible
  by_cases comma : c = ',' ∨ c = ';'
  · have single : more = [] := by
      rcases comma with rfl | rfl
      · exact admitted
      · exact admitted
    rw [single, spanText, if_pos (by simpa using comma)]
    decide
  · obtain ⟨noComma, noSemicolon⟩ := not_or.mp comma
    rw [spanText_of_ne noComma noSemicolon]
    split
    · rename_i begins
      split
      · decide
      · rename_i named
        refine visible_canonicalName ?_ named
        rw [Admitted, if_pos begins] at admitted
        split at admitted
        · rename_i digit
          cases (beginsName_eq_false_of_isDigit digit).symm.trans begins
        · exact admitted
    · exact ⟨by simp [String.ofList_eq_empty_iff], by rwa [String.toList_ofList]⟩

end Lexeme

/-- The text of every token can be seen. -/
theorem visible_text_of_mem_tokenize {formula : String} {options : TokenizerOptions} {token : Token}
    (member : token ∈ tokenize formula options)
    : Visible token.text := by
  obtain ⟨lexeme, inFormula, rfl⟩ := List.mem_map.mp member
  obtain ⟨place, c, rest, visible, rfl⟩ := Lexeme.exists_next_of_mem_ofFormula inFormula
  have admitted := Lexeme.next_admitted options place c rest
  have same : (Lexeme.next options place c rest).token.text
      = Lexeme.spanText (Lexeme.next options place c rest).span :=
    Lexeme.next_text options place c rest
  rw [same]
  rw [Lexeme.span, Lexeme.next_first] at admitted ⊢
  exact Lexeme.visible_spanText admitted visible

theorem visible_of_mem_detectReferences {formula name : String} {options : TokenizerOptions}
    (member : name ∈ detectReferences formula options)
    : Visible name := by
  obtain ⟨token, inTokens, _, rfl⟩ := mem_detectReferences.mp member
  exact visible_text_of_mem_tokenize inTokens

theorem Visible.not_mem {text : String} (visible : Visible text) {c : Char}
    (blank : isBlank c = true)
    : c ∉ text.toList := by
  intro member
  rw [visible.noBlank c member] at blank
  cases blank

namespace CommandLine

-----------------------------------------------------------------------------------------
-- Lines and columns
-----------------------------------------------------------------------------------------

/-- The lines of an output, each of which a line feed ends. -/
def linesOf (output : String) : List String :=
  ((output.toList.splitOn '\n').dropLast).map String.ofList

/-- What stands between the tabs of a line. -/
def columnsOf (line : String) : List String :=
  (line.toList.splitOn '\t').map String.ofList

/-- The kind and the text of the token that a line of a listing gives. -/
def listed? (line : String) : Option (TokenKind × String) :=
  match columnsOf line with
  | [kind, text] => (TokenKind.ofName? kind).map (·, text)
  | _ => none

theorem splitOn_lines {texts : List String} (single : ∀ text ∈ texts, '\n' ∉ text.toList)
    : (lines texts).toList.splitOn '\n' = texts.map String.toList ++ [[]] := by
  induction texts with
  | nil => rfl
  | cons text rest ih =>
      obtain ⟨first, others⟩ := List.forall_mem_cons.mp single
      have apart : (lines (text :: rest)).toList = text.toList ++ '\n' :: (lines rest).toList := by
        simp [lines, line]
      rw [apart, List.splitOn_append_cons_self_of_not_mem first, ih others, List.map_cons,
        List.cons_append]

/-- Texts that are printed as lines are the lines of the output, if each takes up one. -/
theorem linesOf_lines {texts : List String} (single : ∀ text ∈ texts, '\n' ∉ text.toList)
    : linesOf (lines texts) = texts := by
  rw [linesOf, splitOn_lines single, List.dropLast_concat, List.map_map]
  simp

theorem columnsOf_pair {first second : String} (firstPlain : '\t' ∉ first.toList)
    (secondPlain : '\t' ∉ second.toList)
    : columnsOf (first ++ "\t" ++ second) = [first, second] := by
  have apart : (first ++ "\t" ++ second).toList = first.toList ++ '\t' :: second.toList := by
    simp
  rw [columnsOf, apart, List.splitOn_append_cons_self_of_not_mem firstPlain,
    List.splitOn_eq_singleton secondPlain]
  simp

theorem visible_name (kind : TokenKind) : Visible kind.name := by
  cases kind <;> decide

theorem ofName?_name (kind : TokenKind) : TokenKind.ofName? kind.name = some kind := by
  cases kind <;> decide

/-- A line of a listing gives the token that it lists. -/
theorem listed?_listing {token : Token} (visible : Visible token.text)
    : listed? (listing token) = some (token.kind, token.text) := by
  have noTab : isBlank '\t' = true := by
    decide
  rw [listed?, listing, columnsOf_pair ((visible_name token.kind).not_mem noTab)
    (visible.not_mem noTab)]
  simp only [ofName?_name, Option.map_some]

theorem newline_not_mem_listing {token : Token} (visible : Visible token.text)
    : '\n' ∉ (listing token).toList := by
  have newline : isBlank '\n' = true := by
    decide
  have inKind := (visible_name token.kind).not_mem newline
  have inText := visible.not_mem newline
  simp [listing, inKind, inText]

/-- The lines of a listing give the tokens that it lists, in order. -/
theorem mapM_listed? {tokens : List Token} (visible : ∀ token ∈ tokens, Visible token.text)
    : (linesOf (lines (tokens.map listing))).mapM listed?
        = some (tokens.map fun token => (token.kind, token.text)) := by
  rw [linesOf_lines]
  · induction tokens with
    | nil => rfl
    | cons token rest ih =>
        obtain ⟨first, others⟩ := List.forall_mem_cons.mp visible
        rw [List.map_cons, List.mapM_cons, listed?_listing first, ih others]
        rfl
  · intro text member
    obtain ⟨token, inTokens, rfl⟩ := List.mem_map.mp member
    exact newline_not_mem_listing (visible token inTokens)

-----------------------------------------------------------------------------------------
-- Answers
-----------------------------------------------------------------------------------------

/-- Every subcommand can be asked to split any formula into tokens in any way. -/
theorem exists_wording_tokenizerOf (subcommand : Subcommand) (formula : String)
    (options : TokenizerOptions)
    : ∃ words given, subcommand.Wording words given (some formula) ∧ Once given
        ∧ tokenizerOf given = options := by
  obtain ⟨separators, comparisons⟩ := options
  have hasSeparators : subcommand.Has (.option .separators) := by
    cases subcommand <;> exact ⟨by decide, nofun⟩
  have hasStrict : subcommand.Has (.flag .strictOperators) := by
    cases subcommand <;> exact ⟨by decide, nofun⟩
  have named : subcommand.Phrase _ ([].map .flag ++ [.separators separators]) :=
    .equals (.long hasSeparators) (.separators separators)
  have last : subcommand.Wording ["--", formula] [] (some formula) := .afterHyphens formula
  cases comparisons with
  | true =>
      refine ⟨_, _, .settings named last, ?_, rfl⟩
      simp [Once]
  | false =>
      refine ⟨_, _, .settings named (.settings (.flag hasStrict) last), ?_, rfl⟩
      simp [Once, Given.setting]

/-- Listings lose nothing. Any formula can be listed under any settings on tokens, and however these
are worded, the lines of its tokens, each divided at its tab, give their kinds and texts in order,
and the lines of its names are the names. For the text of a token can always be seen, and has no
tab, no line feed and no other white space.
-/
theorem respond_listings (content : String → Option ByteArray) (formula : String)
    (options : TokenizerOptions)
    : (∀ subcommand : Subcommand,
        ∃ words given, subcommand.Wording words given (some formula) ∧ Once given
          ∧ tokenizerOf given = options)
      ∧ (∀ words given, Subcommand.tokens.Wording words given (some formula) → Once given →
        tokenizerOf given = options →
        let answer := respond content ("tokens" :: words)
        answer.exitCode = 0
        ∧ (linesOf answer.output).mapM listed?
          = some ((tokenize formula options).map fun token => (token.kind, token.text)))
      ∧ (∀ words given, Subcommand.vars.Wording words given (some formula) → Once given →
        tokenizerOf given = options →
        let answer := respond content ("vars" :: words)
        answer.exitCode = 0 ∧ linesOf answer.output = detectReferences formula options)
      ∧ ∀ token ∈ tokenize formula options, Visible token.text := by
  refine ⟨fun subcommand => exists_wording_tokenizerOf subcommand formula options,
    fun words given wording once sameOptions => ?_, fun words given wording once sameOptions => ?_,
    fun token member => visible_text_of_mem_tokenize member⟩
  · have answered : respond content ("tokens" :: words)
        = listTokens formula (tokenizerOf given) := by
      rw [respond_of_wording wording once rfl]
      rfl
    rw [answered, sameOptions]
    exact ⟨rfl, mapM_listed? fun token member => visible_text_of_mem_tokenize member⟩
  · have answered : respond content ("vars" :: words)
        = listReferences formula (tokenizerOf given) := by
      rw [respond_of_wording wording once rfl]
      rfl
    rw [answered, sameOptions]
    refine ⟨rfl, linesOf_lines fun name member => ?_⟩
    exact (visible_of_mem_detectReferences member).not_mem (by decide)

/-- A name with an accent, a number with a comma, and characters without a meaning, one of which
separates units of text elsewhere.
-/
theorem respond_listings_unknown
    : let content : String → Option ByteArray := fun _ => none
      let formula := "=média($ ;1,5)>\x1f$b$2"
      let words := ["--separators", "comma", formula, "--strict-operators"]
      let given : List Given := [.separators .comma, .flag .strictOperators]
      Subcommand.tokens.Wording words given (some formula) ∧ Once given
      ∧ (linesOf (respond content ("tokens" :: words)).output).mapM listed?
        = some
            [(.function, "MÉDIA"), (.opening, "("), (.unknown, "$"), (.separator, ","),
              (.number, "1,5"), (.closing, ")"), (.unknown, ">"), (.unknown, "\x1f"),
              (.reference, "B2")] := by
  intro content formula words given
  have unhyphenated : Unhyphenated formula := by
    intro c rest same
    simp [formula] at same
  have separators : Subcommand.tokens.Phrase ["--separators", "comma"] [.separators .comma] :=
    .apart (.long ⟨by decide, nofun⟩) (.separators .comma) (by rintro c rest ⟨⟩)
  have hasStrict : Subcommand.tokens.Has (.flag .strictOperators) := ⟨by decide, nofun⟩
  have strict : Subcommand.tokens.Phrase ["--strict-operators"] [.flag .strictOperators] :=
    .flag hasStrict
  have wording : Subcommand.tokens.Wording words given (some formula) :=
    .settings separators <| .formula unhyphenated <| .settings strict .nil
  have once : Once given := by
    decide
  obtain ⟨_, tokens, _⟩ := respond_listings content formula (tokenizerOf given)
  obtain ⟨_, listed⟩ := tokens words given wording once rfl
  refine ⟨wording, once, listed.trans ?_⟩
  decide +kernel

end CommandLine

end FormulaLatex
