import FormulaLatex.Options.Json
import FormulaLatex.Proofs.Json.Restating
import FormulaLatex.Proofs.Json.RoundTrip

/-! Options survive their JSON form. The text that is written for options describes them, and so
does every text for the same members in another order, with members that no option has a name for
or without members for options that have their defaults.
-/

namespace FormulaLatex

open Json

-----------------------------------------------------------------------------------------
-- Choices
-----------------------------------------------------------------------------------------

theorem DecimalSeparators.toChoice?_name (separators : DecimalSeparators)
    : toChoice? choices (.string separators.name) = some separators := by
  cases separators <;> rfl

theorem PowerAssociativity.toChoice?_name (associativity : PowerAssociativity)
    : toChoice? choices (.string associativity.name) = some associativity := by
  cases associativity <;> rfl

theorem DecimalStyle.toChoice?_name (style : DecimalStyle)
    : toChoice? choices (.string style.name) = some style := by
  cases style <;> rfl

theorem ConversionMode.toChoice?_name (mode : ConversionMode)
    : toChoice? choices (.string mode.name) = some mode := by
  cases mode <;> rfl

-----------------------------------------------------------------------------------------
-- Each kind of options
-----------------------------------------------------------------------------------------

namespace TokenizerOptions

theorem ofJson?_toJson (options : TokenizerOptions) : ofJson? options.toJson = some options := by
  have separators := options.decimalSeparators.toChoice?_name
  simp [ofJson?, toJson, fields?, uniqueMember?, fieldOr, separators, toBool?]

theorem ofJson?_object (members : List (String × Json))
    : ofJson? (.object members)
        = (fieldIn? "decimal_separators" .point (toChoice? DecimalSeparators.choices)
            (.object members)).bind fun decimalSeparators =>
          (fieldIn? "comparisons" true toBool? (.object members)).bind fun comparisons =>
          some { decimalSeparators, comparisons } := by
  simp only [ofJson?, fields?, fieldIn?, List.mapM_cons, List.mapM_nil, Option.bind_eq_bind,
    Option.pure_def]
  cases uniqueMember? members "decimal_separators" <;>
    cases uniqueMember? members "comparisons" <;>
      simp

/-- Restated tokenizer options are the same options. -/
theorem kept_ofJson? : Kept ({} : TokenizerOptions).toJson ofJson? := by
  have separators : Kept ({} : TokenizerOptions).toJson
      (fieldIn? "decimal_separators" .point (toChoice? DecimalSeparators.choices)) :=
    Kept.scalarField (by decide) (.string "point") (by simp [DecimalSeparators.name]) rfl
      (by simp)
  have comparisons : Kept ({} : TokenizerOptions).toJson (fieldIn? "comparisons" true toBool?) :=
    Kept.scalarField (by decide) (.bool true) (by simp) rfl (by simp)
  exact Kept.of_objects ofJson?_object
    (separators.bind fun _ => comparisons.bind fun _ => Kept.pure _)

end TokenizerOptions

namespace ReaderOptions

theorem ofJson?_toJson {options : ReaderOptions} (bounded : options.maxDepth < depthBound)
    : ofJson? options.toJson = some options := by
  have associativity := options.powerAssociativity.toChoice?_name
  simp [ofJson?, toJson, fields?, uniqueMember?, fieldOr, associativity, toNatBelow?, bounded]

theorem ofJson?_object (members : List (String × Json))
    : ofJson? (.object members)
        = (fieldIn? "max_depth" 64 (toNatBelow? depthBound) (.object members)).bind fun maxDepth =>
          (fieldIn? "power_associativity" .left (toChoice? PowerAssociativity.choices)
            (.object members)).bind fun powerAssociativity =>
          some { maxDepth, powerAssociativity } := by
  simp only [ofJson?, fields?, fieldIn?, List.mapM_cons, List.mapM_nil, Option.bind_eq_bind,
    Option.pure_def]
  cases uniqueMember? members "max_depth" <;>
    cases uniqueMember? members "power_associativity" <;>
      simp

/-- Restated reader options are the same options. -/
theorem kept_ofJson? : Kept ({} : ReaderOptions).toJson ofJson? := by
  have depth : Kept ({} : ReaderOptions).toJson
      (fieldIn? "max_depth" 64 (toNatBelow? depthBound)) :=
    Kept.scalarField (by decide) (.natural 64) (by simp) rfl (by simp)
  have associativity : Kept ({} : ReaderOptions).toJson
      (fieldIn? "power_associativity" .left (toChoice? PowerAssociativity.choices)) :=
    Kept.scalarField (by decide) (.string "left") (by simp [PowerAssociativity.name]) rfl
      (by simp)
  exact Kept.of_objects ofJson?_object
    (depth.bind fun _ => associativity.bind fun _ => Kept.pure _)

end ReaderOptions

namespace RenderOptions

theorem ofJson?_toJson (options : RenderOptions) : ofJson? options.toJson = some options := by
  have style := options.decimalStyle.toChoice?_name
  simp [ofJson?, toJson, fields?, uniqueMember?, fieldOr, style]

theorem ofJson?_object (members : List (String × Json))
    : ofJson? (.object members)
        = (fieldIn? "decimal_style" .comma (toChoice? DecimalStyle.choices)
            (.object members)).bind fun decimalStyle =>
          some { decimalStyle } := by
  simp only [ofJson?, fields?, fieldIn?, List.mapM_cons, List.mapM_nil, Option.bind_eq_bind,
    Option.pure_def]
  cases uniqueMember? members "decimal_style" <;> simp

/-- Restated render options are the same options. -/
theorem kept_ofJson? : Kept ({} : RenderOptions).toJson ofJson? := by
  have style : Kept ({} : RenderOptions).toJson
      (fieldIn? "decimal_style" .comma (toChoice? DecimalStyle.choices)) :=
    Kept.scalarField (by decide) (.string "comma") (by simp [DecimalStyle.name]) rfl (by simp)
  exact Kept.of_objects ofJson?_object (style.bind fun _ => Kept.pure _)

end RenderOptions

-----------------------------------------------------------------------------------------
-- All options
-----------------------------------------------------------------------------------------

namespace ConvertOptions

theorem ofJson?_toJson {options : ConvertOptions}
    (bounded : options.reader.maxDepth < ReaderOptions.depthBound)
    : ofJson? options.toJson = some options := by
  have mode := options.mode.toChoice?_name
  simp [ofJson?, toJson, fields?, uniqueMember?, fieldOr, mode,
    options.tokenizer.ofJson?_toJson, ReaderOptions.ofJson?_toJson bounded,
    options.render.ofJson?_toJson]

theorem ofJson?_object (members : List (String × Json))
    : ofJson? (.object members)
        = (fieldIn? "tokenizer" {} TokenizerOptions.ofJson? (.object members)).bind fun tokenizer =>
          (fieldIn? "parser" {} ReaderOptions.ofJson? (.object members)).bind fun reader =>
          (fieldIn? "render" {} RenderOptions.ofJson? (.object members)).bind fun render =>
          (fieldIn? "mode" .precise (toChoice? ConversionMode.choices) (.object members)).bind
            fun mode =>
          some { tokenizer, reader, render, mode } := by
  simp only [ofJson?, fields?, fieldIn?, List.mapM_cons, List.mapM_nil, Option.bind_eq_bind,
    Option.pure_def]
  cases uniqueMember? members "tokenizer" <;>
    cases uniqueMember? members "parser" <;>
      cases uniqueMember? members "render" <;>
        cases uniqueMember? members "mode" <;>
          simp

/-- Restated options are the same options, at either level. -/
theorem kept_ofJson? : Kept ({} : ConvertOptions).toJson ofJson? := by
  have tokenizer : Kept ({} : ConvertOptions).toJson
      (fieldIn? "tokenizer" {} TokenizerOptions.ofJson?) :=
    Kept.fieldIn? (by decide) ({} : TokenizerOptions).toJson (by simp)
      (TokenizerOptions.ofJson?_toJson {}) TokenizerOptions.kept_ofJson?
  have reader : Kept ({} : ConvertOptions).toJson
      (fieldIn? "parser" {} ReaderOptions.ofJson?) :=
    Kept.fieldIn? (by decide) ({} : ReaderOptions).toJson (by simp)
      (ReaderOptions.ofJson?_toJson (by decide)) ReaderOptions.kept_ofJson?
  have render : Kept ({} : ConvertOptions).toJson
      (fieldIn? "render" {} RenderOptions.ofJson?) :=
    Kept.fieldIn? (by decide) ({} : RenderOptions).toJson (by simp)
      (RenderOptions.ofJson?_toJson {}) RenderOptions.kept_ofJson?
  have mode : Kept ({} : ConvertOptions).toJson
      (fieldIn? "mode" .precise (toChoice? ConversionMode.choices)) :=
    Kept.scalarField (by decide) (.string "precise") (by simp [ConversionMode.name]) rfl (by simp)
  exact Kept.of_objects ofJson?_object (tokenizer.bind fun _ => reader.bind fun _ =>
    render.bind fun _ => mode.bind fun _ => Kept.pure _)

/-- What is written for options are names, truth values and a natural number. -/
theorem spellable_toJson (options : ConvertOptions) : options.toJson.spellable = true :=
  rfl

/-- A text for restated options describes what a text for the options does. -/
theorem ofText?_of_restates {options : ConvertOptions} {text other : String} {json restated : Json}
    (described : ofText? text = some options) (read : Json.ofText? text = some json)
    (restates : Restates ({} : ConvertOptions).toJson json restated)
    (readOther : Json.ofText? other = some restated)
    : ofText? other = some options := by
  rw [ofText?, read] at described
  rw [ofText?, readOther]
  exact kept_ofJson? _ _ _ restates described

/-- Options survive their JSON form. The text that is written for them describes them. A text that
describes them does so as well with members in another order, with members that have unknown names
and any values, or without members that equal their defaults, in the options and in each kind of
them. Among such texts are those that are written, on one line or on many, for a restated value in
which every spelling of a number is one.
-/
theorem toText_faithful (options : ConvertOptions)
    (bounded : options.reader.maxDepth < ReaderOptions.depthBound)
    : ofText? options.toText = some options
      ∧ (∀ restated, Restates ({} : ConvertOptions).toJson options.toJson restated →
          restated.spellable = true →
          ofText? restated.compact = some options ∧ ofText? restated.pretty = some options)
      ∧ ∀ text other json restated, ofText? text = some options →
          Json.ofText? text = some json →
          Restates ({} : ConvertOptions).toJson json restated →
          Json.ofText? other = some restated →
          ofText? other = some options := by
  have read := Json.ofText?_compact options.spellable_toJson
  have described : ofText? options.toText = some options := by
    rw [ofText?, toText, read]
    exact ofJson?_toJson bounded
  refine ⟨described, fun restated restates numbers => ⟨?_, ?_⟩, ?_⟩
  · exact ofText?_of_restates described read restates (Json.ofText?_compact numbers)
  · exact ofText?_of_restates described read restates (Json.ofText?_pretty numbers)
  · exact fun _ _ _ _ => ofText?_of_restates

/-- Some options by another text: in another order, with a number and an array that mean nothing,
and without what has its default.
-/
theorem toText_faithful_restated
    : 7 < ReaderOptions.depthBound
      ∧ ofText?
            ("\x7b\"note\":-1.5e3,\"mode\":\"quick\"," ++
              "\"parser\":\x7b\"extra\":[null],\"max_depth\":7\x7d," ++
              "\"tokenizer\":\x7b\"comparisons\":false\x7d\x7d")
          = some
              { tokenizer := { comparisons := false }, reader := { maxDepth := 7 },
                mode := .quick } := by
  let options : ConvertOptions :=
    { tokenizer := { comparisons := false }, reader := { maxDepth := 7 }, mode := .quick }
  let tokenizer : Json := .object [("comparisons", .bool false)]
  let reader : Json := .object [("extra", .array [.null]), ("max_depth", .natural 7)]
  let restated : Json :=
    .object
      [("note", .number "-1.5e3"), ("mode", .string "quick"), ("parser", reader),
       ("tokenizer", tokenizer)]
  have restatesTokenizer : Restates ({} : TokenizerOptions).toJson options.tokenizer.toJson
      tokenizer :=
    .omitted (.head _) .same
  have restatesReader : Restates ({} : ReaderOptions).toJson options.reader.toJson reader :=
    .trans (.reordered (.swap _ _ _))
      (.trans (.omitted (.tail _ (.head _)) .same) (.added (by decide) _))
  have withinTokenizer : Restates ({} : ConvertOptions).toJson options.toJson
      (.object
        [("tokenizer", tokenizer), ("parser", options.reader.toJson),
         ("render", options.render.toJson), ("mode", .string "quick")]) :=
    .within (.head _) restatesTokenizer
  have withinReader : Restates ({} : ConvertOptions).toJson options.toJson
      (.object
        [("parser", reader), ("tokenizer", tokenizer), ("render", options.render.toJson),
         ("mode", .string "quick")]) :=
    withinTokenizer.trans
      (.trans (.reordered (.swap _ _ _)) (.within (.tail _ (.head _)) restatesReader))
  have others : Restates ({} : ConvertOptions).toJson options.toJson
      (.object [("mode", .string "quick"), ("parser", reader), ("tokenizer", tokenizer)]) := by
    let first : List (String × Json) := [("parser", reader), ("tokenizer", tokenizer)]
    let second : List (String × Json) :=
      [("render", options.render.toJson), ("mode", .string "quick")]
    have halves : (first ++ second).Perm (second ++ first) := List.perm_append_comm
    exact withinReader.trans
      (.trans (.reordered halves) (.omitted (.tail _ (.tail _ (.head _))) .same))
  have restates : Restates ({} : ConvertOptions).toJson options.toJson restated :=
    others.trans (.added (by decide) _)
  have numbers : restated.spellable = true := by
    decide
  have texts := (toText_faithful options (by decide)).2.1 restated restates numbers
  exact ⟨by decide, texts.1⟩

end ConvertOptions

end FormulaLatex
