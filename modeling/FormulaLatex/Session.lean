import FormulaLatex.Convert

/-! Sessions: conversions one after another that share options and a rename table. The table
grows with every name that a converted formula mentions.
-/

namespace FormulaLatex

/-- A session: its rename table, its options, and the formula that it converted last. -/
structure Session where
  renames : RenameTable := {}
  options : ConvertOptions := {}
  lastFormula : String := ""

namespace Session

/-- The session that has seen a formula: every name in it has an entry in the table. -/
def see (session : Session) (formula : String) : Session :=
  { session with
    renames := session.renames.seed formula session.options.tokenizer
    lastFormula := formula }

/-- The LaTeX of a formula, or what is wrong with it, and the session afterwards. -/
def tryConvert (session : Session) (formula : String)
    : Except FormulaError String × Session :=
  let session := session.see formula
  (FormulaLatex.tryConvert formula session.renames session.options, session)

/-- The LaTeX of a formula, or the notation of what is wrong with it, and the session
afterwards.
-/
def convert (session : Session) (formula : String) : String × Session :=
  let session := session.see formula
  (FormulaLatex.convert formula session.renames session.options, session)

/-- The session in which a symbol stands for a name. -/
def rename (session : Session) (reference symbol : String) : Session :=
  { session with renames := session.renames.insert reference symbol }

/-- The session with other options. -/
def withOptions (session : Session) (options : ConvertOptions) : Session :=
  { session with options }

/-- The names in the formula that was converted last, under the present options. -/
def references (session : Session) : List String :=
  detectReferences session.lastFormula session.options.tokenizer

end Session

end FormulaLatex
