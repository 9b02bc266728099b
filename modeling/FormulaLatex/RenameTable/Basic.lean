import Std.Data.ExtTreeMap
import FormulaLatex.Token.OfFormula

/-! Rename tables: the symbols that stand for cells in the notation. A cell is known by the
upper-case form of its name, so a table does not tell spellings in different cases apart.
-/

namespace FormulaLatex

/-- A rename table: for each canonical name that it knows, a symbol. An empty symbol is kept
but stands for nothing.
-/
structure RenameTable where
  symbols : Std.ExtTreeMap String String := ∅

namespace RenameTable

/-- The form of a name under which a table keeps its symbol. -/
def canonical (reference : String) : String :=
  Text.upperCase reference

/-- The table without any entry. -/
def empty : RenameTable := {}

/-- The entry for a name, be it empty or not. -/
def stored? (table : RenameTable) (reference : String) : Option String :=
  table.symbols[canonical reference]?

/-- The table with a symbol for a name in place of any other. -/
def insert (table : RenameTable) (reference symbol : String) : RenameTable :=
  ⟨table.symbols.insert (canonical reference) symbol⟩

/-- The table without an entry for a name. -/
def erase (table : RenameTable) (reference : String) : RenameTable :=
  ⟨table.symbols.erase (canonical reference)⟩

/-- The table with entries inserted one after another. -/
def insertAll (table : RenameTable) (entries : List (String × String)) : RenameTable :=
  entries.foldl (fun table entry => table.insert entry.1 entry.2) table

/-- The table of a list of entries, of which a later one replaces an earlier one. -/
def ofList (entries : List (String × String)) : RenameTable :=
  empty.insertAll entries

/-- The entries in ascending order of their names. -/
def toList (table : RenameTable) : List (String × String) :=
  table.symbols.toList

/-- The number of entries. -/
def size (table : RenameTable) : Nat :=
  table.symbols.size

/-- Whether a table has no entry. -/
def isEmpty (table : RenameTable) : Bool :=
  table.symbols.isEmpty

/-- No name has an entry in the empty table. -/
@[simp]
theorem stored?_empty (reference : String) : empty.stored? reference = none := by
  simp [stored?, empty]

/-- Inserting changes the entry of one canonical name. -/
theorem stored?_insert (table : RenameTable) (reference symbol other : String)
    : (table.insert reference symbol).stored? other
        = if canonical reference = canonical other then some symbol
          else table.stored? other := by
  simp only [stored?, insert, Std.ExtTreeMap.getElem?_insert, Std.compare_eq_iff_eq]

/-- Erasing takes away the entry of one canonical name. -/
theorem stored?_erase (table : RenameTable) (reference other : String)
    : (table.erase reference).stored? other
        = if canonical reference = canonical other then none else table.stored? other := by
  simp only [stored?, erase, Std.ExtTreeMap.getElem?_erase, Std.compare_eq_iff_eq]

/-- The symbol for a name, unless there is none or it is empty. -/
def get? (table : RenameTable) (reference : String) : Option String :=
  (table.stored? reference).filter fun symbol => !symbol.isEmpty

/-- What is shown for a name: its symbol, or else its canonical form. -/
def resolve (table : RenameTable) (reference : String) : String :=
  (table.get? reference).getD (canonical reference)

/-- The names in a formula for which a table has no entry yet, in ascending order. -/
def missing (table : RenameTable) (formula : String) (options : TokenizerOptions := {})
    : List String :=
  (detectReferences formula options).filter fun name => !table.symbols.contains name

/-- The table in which every name of a formula has an entry. A name without one is entered as
its own symbol.
-/
def seed (table : RenameTable) (formula : String) (options : TokenizerOptions := {})
    : RenameTable :=
  ⟨(table.missing formula options).foldl (fun symbols name => symbols.insert name name)
    table.symbols⟩

end RenameTable

end FormulaLatex
