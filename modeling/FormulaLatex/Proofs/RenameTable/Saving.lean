import FormulaLatex.Proofs.Json.RoundTrip
import FormulaLatex.Proofs.RenameTable.History

/-! Saving a rename table. The JSON text of a table that came about by changes describes the table
itself: all keys are canonical already, so reading it neither renames nor merges entries.
-/

namespace FormulaLatex.RenameTable

theorem lastSymbol?_congr {test other : String → Bool} {entries : List (String × String)}
    (same : ∀ entry ∈ entries, test entry.1 = other entry.1)
    : lastSymbol? test entries = lastSymbol? other entries := by
  rw [lastSymbol?, lastSymbol?, List.filter_congr same]

/-- A listing of a map has one entry for each key. -/
theorem lastSymbol?_toList (symbols : Std.ExtTreeMap String String) (name : String)
    : lastSymbol? (· == name) symbols.toList = symbols[name]? := by
  rw [lastSymbol?]
  cases last : (symbols.toList.filter fun entry => entry.1 == name).getLast? with
  | none =>
      rw [List.getLast?_eq_none_iff, List.filter_eq_nil_iff] at last
      cases entry : symbols[name]? with
      | none => rfl
      | some symbol =>
          have member := Std.ExtTreeMap.mem_toList_iff_getElem?_eq_some.mpr entry
          exact absurd (beq_self_eq_true name) (last _ member)
  | some entry =>
      obtain ⟨member, same⟩ := List.mem_filter.mp (List.mem_of_getLast? last)
      rw [← eq_of_beq same]
      exact (Std.ExtTreeMap.mem_toList_iff_getElem?_eq_some.mp member).symm

theorem foldl_insert_toList (symbols : Std.ExtTreeMap String String)
    : symbols.toList.foldl (fun written entry => written.insert entry.1 entry.2)
          (∅ : Std.ExtTreeMap String String)
        = symbols := by
  refine Std.ExtTreeMap.ext_getElem? fun name => ?_
  have held := getElem?_foldl_insert id symbols.toList ∅ name
  simp only [id, Std.ExtTreeMap.getElem?_empty, Option.or_none, lastSymbol?_toList] at held
  exact held

/-- The entries of a table make up the table, if its keys are canonical. -/
theorem ofList_toList {table : RenameTable}
    (keys : ∀ name : String, name ∈ table.symbols → canonical name = name)
    : ofList table.toList = table := by
  refine ext_symbols fun name => ?_
  rw [getElem?_ofList, toList, ← lastSymbol?_toList]
  refine lastSymbol?_congr fun entry member => ?_
  have found := Std.ExtTreeMap.mem_toList_iff_getElem?_eq_some.mp member
  have key : entry.1 ∈ table.symbols := by
    rw [Std.ExtTreeMap.mem_iff_isSome_getElem?, found]
    rfl
  rw [keys entry.1 key]

theorem strings?_map (entries : List (String × String))
    : strings? (entries.map fun entry => (entry.1, .string entry.2)) = some entries := by
  induction entries with
  | nil => rfl
  | cons entry rest ih =>
      rw [List.map_cons, strings?, ih]
      rfl

theorem ofJson?_toJson {table : RenameTable}
    (keys : ∀ name : String, name ∈ table.symbols → canonical name = name)
    : ofJson? table.toJson = some table := by
  rw [toJson, ofJson?, strings?_map]
  simp only [Option.bind_eq_bind, Option.bind_some, toList, foldl_insert_toList]
  rw [← toList, ofList_toList keys]
  rfl

theorem spellable_toJson (table : RenameTable) : table.toJson.spellable = true := by
  rw [toJson, Json.spellable]
  induction table.toList with
  | nil => rfl
  | cons entry rest ih =>
      rw [List.map_cons, Json.membersSpellable, ih]
      rfl

theorem ofText?_toText {table : RenameTable}
    (keys : ∀ name : String, name ∈ table.symbols → canonical name = name)
    : ofText? table.toText = some table ∧ ofText? table.toFileText = some table := by
  have numbers := spellable_toJson table
  simp only [ofText?, toText, toFileText, Json.ofText?_compact numbers,
    Json.ofText?_pretty numbers, Option.bind_eq_bind, Option.bind_some, ofJson?_toJson keys,
    and_self]

theorem fromUTF8?_toUTF8 (text : String) : String.fromUTF8? text.toUTF8 = some text := by
  have valid : text.toUTF8.IsValidUTF8 := text.isValidUTF8
  rw [String.fromUTF8?, dif_pos valid]
  rfl

/-- However a table came about, its text describes it, be it written on one line or as it is
saved. So a file that has been saved opens as the same table, and saving that table once more
writes the same text.
-/
theorem ofFile_toFileText (edits : List Edit)
    : ofText? (afterEdits edits).toText = some (afterEdits edits)
      ∧ ofText? (afterEdits edits).toFileText = some (afterEdits edits)
      ∧ ofFile (some (afterEdits edits).toFileText.toUTF8) = .ok (afterEdits edits)
      ∧ (ofFile (some (afterEdits edits).toFileText.toUTF8)).map toFileText
          = .ok (afterEdits edits).toFileText := by
  have keys : ∀ name : String, name ∈ (afterEdits edits).symbols → canonical name = name :=
    fun _ => canonical_of_mem_afterEdits
  obtain ⟨line, file⟩ := ofText?_toText keys
  have opened : ofFile (some (afterEdits edits).toFileText.toUTF8) = .ok (afterEdits edits) := by
    simp only [ofFile, fromUTF8?_toUTF8, file]
  exact ⟨line, file, opened, by rw [opened]; rfl⟩

end FormulaLatex.RenameTable
