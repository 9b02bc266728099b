import FormulaLatex.Main
import FormulaLatex.Session
import FormulaLatex.Proofs.Expr.Grouping
import FormulaLatex.Proofs.Expr.Soundness
import FormulaLatex.Proofs.Expr.Completeness
import FormulaLatex.Proofs.Expr.Grammar
import FormulaLatex.Proofs.Expr.Derivation
import FormulaLatex.Proofs.Expr.Height
import FormulaLatex.Proofs.Expr.Fusion
import FormulaLatex.Proofs.Expr.Spacing
import FormulaLatex.Proofs.Expr.References
import FormulaLatex.Proofs.Expr.Respelling
import FormulaLatex.Proofs.Expr.Numbers
import FormulaLatex.Proofs.Expr.DecimalComma
import FormulaLatex.Proofs.Session.Seeding
import FormulaLatex.Proofs.Session.Entries
import FormulaLatex.Proofs.Session.Renaming
import FormulaLatex.Proofs.RenameTable.Lookup
import FormulaLatex.Proofs.RenameTable.History
import FormulaLatex.Proofs.RenameTable.Saving
import FormulaLatex.Proofs.RenameTable.Loading
import FormulaLatex.Proofs.Json.Strings
import FormulaLatex.Proofs.Json.Numbers
import FormulaLatex.Proofs.Json.Spelling
import FormulaLatex.Proofs.Json.RoundTrip
import FormulaLatex.Proofs.Json.Restating
import FormulaLatex.Proofs.Options.JsonForm
import FormulaLatex.Proofs.Text.Division
import FormulaLatex.Proofs.Text.Classes
import FormulaLatex.Proofs.Text.UpperCase
import FormulaLatex.Proofs.Token.LexicalGrammar
import FormulaLatex.Proofs.Token.LongestMatch
import FormulaLatex.Proofs.Token.References
import FormulaLatex.Proofs.Token.Spacing
import FormulaLatex.Proofs.Token.Respelling
import FormulaLatex.Proofs.Token.DecimalComma
import FormulaLatex.Proofs.Token.Adjacency
import FormulaLatex.Proofs.Token.Unknown
import FormulaLatex.Proofs.Token.Retyping
import FormulaLatex.Proofs.Latex.Pieces
import FormulaLatex.Proofs.Latex.Outline
import FormulaLatex.Proofs.Latex.Alike
import FormulaLatex.Proofs.Latex.Writing
import FormulaLatex.Proofs.Latex.Template
import FormulaLatex.Proofs.Latex.Unambiguous
import FormulaLatex.Proofs.Latex.PassOver
import FormulaLatex.Proofs.Latex.Nesting
import FormulaLatex.Proofs.Latex.WellNested
import FormulaLatex.Proofs.Latex.Escaping
import FormulaLatex.Proofs.Latex.ErrorNotation
import FormulaLatex.Proofs.Latex.EscapedText
import FormulaLatex.Proofs.Expr.DepthLimit
import FormulaLatex.Proofs.Expr.ViablePrefix
import FormulaLatex.Proofs.Expr.PowerGrouping
import FormulaLatex.Proofs.Expr.CalledNames
import FormulaLatex.Proofs.Expr.InvalidCharacters
import FormulaLatex.Proofs.Expr.SurroundingSpace
import FormulaLatex.Proofs.Quick.Layout
import FormulaLatex.Proofs.Quick.Callee
import FormulaLatex.Proofs.Quick.Rewriting
import FormulaLatex.Proofs.Quick.SingleCalls
import FormulaLatex.Proofs.Quick.Compositional
import FormulaLatex.Proofs.Quick.OtherText
import FormulaLatex.Proofs.Quick.Balance
import FormulaLatex.Proofs.Quick.Commands
import FormulaLatex.Proofs.Quick.CommandEnds
import FormulaLatex.Proofs.Quick.IntactCommands
import FormulaLatex.Proofs.Quick.Passes
import FormulaLatex.Proofs.CommandLine.Wording
import FormulaLatex.Proofs.CommandLine.Reading
import FormulaLatex.Proofs.CommandLine.Answers
import FormulaLatex.Proofs.CommandLine.Listings
import FormulaLatex.Proofs.CommandLine.Renames
