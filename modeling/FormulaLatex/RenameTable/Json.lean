import FormulaLatex.Json.OfText
import FormulaLatex.Json.Print
import FormulaLatex.RenameTable.Basic

/-! Rename tables as JSON: an object with a string for each name. -/

namespace FormulaLatex.RenameTable

/-- The table as an object whose members are in ascending order of their names. -/
def toJson (table : RenameTable) : Json :=
  .object (table.toList.map fun entry => (entry.1, .string entry.2))

/-- The names and strings of a list of members, if every value is a string. -/
def strings? : List (String × Json) → Option (List (String × String))
  | [] => some []
  | (name, .string text) :: rest => (strings? rest).map ((name, text) :: ·)
  | _ :: _ => none

/-- The table of an object of strings. Of members with one and the same name the last counts;
then the entries are inserted in ascending order of their names as written, so of spellings
that differ in case the greatest counts.
-/
def ofJson? : Json → Option RenameTable
  | .object members => do
      let entries ← strings? members
      let written : Std.ExtTreeMap String String :=
        entries.foldl (fun written entry => written.insert entry.1 entry.2) ∅
      return ofList written.toList
  | _ => none

/-- The table that a JSON text describes, if it describes one. -/
def ofText? (text : String) : Option RenameTable := do
  ofJson? (← Json.ofText? text)

/-- The table as JSON text on one line. -/
def toText (table : RenameTable) : String :=
  table.toJson.compact

/-- The table as it is saved: JSON text with one entry a line. -/
def toFileText (table : RenameTable) : String :=
  table.toJson.pretty

/-- Why a file gives no rename table. -/
inductive FileError
  /-- There is no such file. -/
  | missing
  /-- The content is not UTF-8. -/
  | invalidEncoding
  /-- The text is not an object of strings. -/
  | malformed
  deriving DecidableEq, Repr

/-- The report of an unusable file. -/
def FileError.message : FileError → String
  | .missing => "I/O error: No such file or directory (os error 2)"
  | .invalidEncoding => "I/O error: stream did not contain valid UTF-8"
  | .malformed => "Invalid rename table"

/-- The table in a file with the given content, where `none` is a file that does not exist. -/
def ofFile (content : Option ByteArray) : Except FileError RenameTable :=
  match content with
  | none => .error .missing
  | some bytes =>
      match String.fromUTF8? bytes with
      | none => .error .invalidEncoding
      | some text =>
          match ofText? text with
          | none => .error .malformed
          | some table => .ok table

end FormulaLatex.RenameTable
