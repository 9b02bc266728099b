import FormulaLatex.Json.Fields
import FormulaLatex.Json.OfText
import FormulaLatex.Json.Print
import FormulaLatex.Options

/-! Options as JSON. Every field may be left out and then has its default. -/

namespace FormulaLatex

/-- The decimal separators by name. -/
def DecimalSeparators.choices : List (String × DecimalSeparators) :=
  [("both", .both), ("point", .point), ("comma", .comma)]

/-- The name of decimal separators. -/
def DecimalSeparators.name : DecimalSeparators → String
  | .both => "both"
  | .point => "point"
  | .comma => "comma"

/-- The groupings of powers by name. -/
def PowerAssociativity.choices : List (String × PowerAssociativity) :=
  [("left", .left), ("right", .right)]

/-- The name of a grouping of powers. -/
def PowerAssociativity.name : PowerAssociativity → String
  | .left => "left"
  | .right => "right"

/-- The decimal styles by name. -/
def DecimalStyle.choices : List (String × DecimalStyle) :=
  [("comma", .comma), ("point", .point), ("preserve", .preserve)]

/-- The name of a decimal style. -/
def DecimalStyle.name : DecimalStyle → String
  | .comma => "comma"
  | .point => "point"
  | .preserve => "preserve"

/-- The modes of conversion by name. -/
def ConversionMode.choices : List (String × ConversionMode) :=
  [("precise", .precise), ("quick", .quick)]

/-- The name of a mode of conversion. -/
def ConversionMode.name : ConversionMode → String
  | .precise => "precise"
  | .quick => "quick"

namespace TokenizerOptions

/-- Tokenizer options as an object with all fields. -/
def toJson (options : TokenizerOptions) : Json :=
  .object
    [("decimal_separators", .string options.decimalSeparators.name),
     ("comparisons", .bool options.comparisons)]

/-- The tokenizer options that a value describes. -/
def ofJson? (json : Json) : Option TokenizerOptions := do
  match ← json.fields? ["decimal_separators", "comparisons"] with
  | [separators, comparisons] =>
      return {
        decimalSeparators :=
          ← Json.fieldOr .point (Json.toChoice? DecimalSeparators.choices) separators
        comparisons := ← Json.fieldOr true Json.toBool? comparisons
      }
  | _ => none

end TokenizerOptions

namespace ReaderOptions

/-- Limits on depth lie below this bound, the sixty-fourth power of two. -/
def depthBound : Nat := 0x10000000000000000

/-- Reader options as an object with all fields. -/
def toJson (options : ReaderOptions) : Json :=
  .object
    [("max_depth", .natural options.maxDepth),
     ("power_associativity", .string options.powerAssociativity.name)]

/-- The reader options that a value describes. -/
def ofJson? (json : Json) : Option ReaderOptions := do
  match ← json.fields? ["max_depth", "power_associativity"] with
  | [maxDepth, associativity] =>
      return {
        maxDepth := ← Json.fieldOr 64 (Json.toNatBelow? depthBound) maxDepth
        powerAssociativity :=
          ← Json.fieldOr .left (Json.toChoice? PowerAssociativity.choices) associativity
      }
  | _ => none

end ReaderOptions

namespace RenderOptions

/-- Render options as an object with all fields. -/
def toJson (options : RenderOptions) : Json :=
  .object [("decimal_style", .string options.decimalStyle.name)]

/-- The render options that a value describes. -/
def ofJson? (json : Json) : Option RenderOptions := do
  match ← json.fields? ["decimal_style"] with
  | [style] =>
      return { decimalStyle := ← Json.fieldOr .comma (Json.toChoice? DecimalStyle.choices) style }
  | _ => none

end RenderOptions

namespace ConvertOptions

/-- Conversion options as an object with all fields. -/
def toJson (options : ConvertOptions) : Json :=
  .object
    [("tokenizer", options.tokenizer.toJson),
     ("parser", options.reader.toJson),
     ("render", options.render.toJson),
     ("mode", .string options.mode.name)]

/-- The conversion options that a value describes. -/
def ofJson? (json : Json) : Option ConvertOptions := do
  match ← json.fields? ["tokenizer", "parser", "render", "mode"] with
  | [tokenizer, reader, render, mode] =>
      return {
        tokenizer := ← Json.fieldOr {} TokenizerOptions.ofJson? tokenizer
        reader := ← Json.fieldOr {} ReaderOptions.ofJson? reader
        render := ← Json.fieldOr {} RenderOptions.ofJson? render
        mode := ← Json.fieldOr .precise (Json.toChoice? ConversionMode.choices) mode
      }
  | _ => none

/-- Conversion options as JSON text on one line. -/
def toText (options : ConvertOptions) : String :=
  options.toJson.compact

/-- The conversion options that a JSON text describes. -/
def ofText? (text : String) : Option ConvertOptions := do
  ofJson? (← Json.ofText? text)

end ConvertOptions

end FormulaLatex
